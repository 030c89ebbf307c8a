import GraphScript.Token.Literal

namespace GraphScript.Token

/-!
# Scanning a program text

The scanner cuts a text into tokens. Blanks and comments separate tokens and
are dropped. A character that starts no token is reported and dropped as well;
once the limit of errors is reached, the rest of the text is left unread.
-/

/-- A place in the middle of a text that is being scanned. -/
structure Scanner where
  rest : List Char
  position : Position
  faults : List FaultReport

namespace Scanner

/-- The start of a text. -/
def ofText
    (text : List Char) :
    Scanner :=
  ⟨text, .origin, []⟩

/-- Step over a number of characters. -/
def skip
    (scanner : Scanner)
    (count : Nat) :
    Scanner :=
  { scanner with
    rest := scanner.rest.drop count
    position := scanner.position.advanceBy (scanner.rest.take count) }

/-- Record faults. -/
def report
    (scanner : Scanner)
    (reports : List FaultReport) :
    Scanner :=
  { scanner with faults := scanner.faults ++ reports }

/-- Whether the limit of errors is reached. -/
def isFull
    (scanner : Scanner) :
    Bool :=
  Diagnostic.errorLimit ≤ scanner.faults.length

/-- The token that ends every text, at the current position. -/
def endToken
    (scanner : Scanner) :
    Token :=
  ⟨.endOfFile, .point scanner.position⟩

@[simp] theorem rest_skip
    (scanner : Scanner)
    (count : Nat) :
    (scanner.skip count).rest = scanner.rest.drop count :=
  rfl

@[simp] theorem rest_report
    (scanner : Scanner)
    (reports : List FaultReport) :
    (scanner.report reports).rest = scanner.rest :=
  rfl

end Scanner

/-- The number of characters through the end of a block comment, if it ends. -/
def blockCommentLength? :
    List Char →
    Option Nat
  | [] =>
      none
  | '*' :: '/' :: _ =>
      some 2
  | _ :: rest =>
      (blockCommentLength? rest).map (· + 1)

namespace Scanner

/-- Step over a block comment, whose opening is still ahead. -/
def skipBlockComment
    (scanner : Scanner) :
    Scanner :=
  match blockCommentLength? (scanner.rest.drop 2) with
  | some length =>
      scanner.skip (2 + length)
  | none =>
      let atEnd := scanner.skip scanner.rest.length
      atEnd.report
        [⟨.unterminatedComment, .upTo scanner.position atEnd.position⟩]

/-- Step over the blank or the comment at the current position, if there is one. -/
def skipSeparator?
    (scanner : Scanner) :
    Option Scanner :=
  match scanner.rest with
  | [] =>
      none
  | '/' :: '/' :: _ =>
      some
        (scanner.skip
          (scanner.rest.takeWhile fun character => character ≠ '\n').length)
  | '/' :: '*' :: _ =>
      some scanner.skipBlockComment
  | character :: _ =>
      if isBlank character then
        some (scanner.skip 1)
      else
        none

/-- A block comment takes up at least one character. -/
theorem length_skipBlockComment_lt
    (scanner : Scanner)
    (nonempty : scanner.rest ≠ []) :
    scanner.skipBlockComment.rest.length < scanner.rest.length := by
  have positive := List.length_pos_iff.2 nonempty
  unfold skipBlockComment
  split
  · simp only [rest_skip, List.length_drop]
    omega
  · simp only [rest_report, rest_skip, List.length_drop]
    omega

/-- A separator takes up at least one character. -/
theorem length_skipSeparator?_lt
    {scanner next : Scanner}
    (skipped : scanner.skipSeparator? = some next) :
    next.rest.length < scanner.rest.length := by
  unfold skipSeparator? at skipped
  split at skipped
  · contradiction
  · next rest isRest =>
      cases skipped
      simp [isRest]
      omega
  · next rest isRest =>
      cases skipped
      exact length_skipBlockComment_lt scanner (by simp [isRest])
  · next character rest _ _ isRest =>
      split at skipped
      · cases skipped
        simp [isRest]
      · contradiction

/-- Step over all blanks and comments at the current position. -/
def skipSeparators
    (scanner : Scanner) :
    Scanner :=
  match skipped : scanner.skipSeparator? with
  | some next =>
      have : next.rest.length < scanner.rest.length :=
        length_skipSeparator?_lt skipped
      next.skipSeparators
  | none =>
      scanner
termination_by scanner.rest.length

/-- Separators never give text back. -/
theorem length_skipSeparators_le
    (scanner : Scanner) :
    scanner.skipSeparators.rest.length ≤ scanner.rest.length := by
  fun_induction skipSeparators scanner with
  | case1 scanner next skipped shorter inductionHypothesis =>
      exact Nat.le_trans inductionHypothesis (Nat.le_of_lt shorter)
  | case2 =>
      exact Nat.le_refl _

end Scanner

/-- What the head of a text is, and how many characters it takes. -/
structure Lexeme where
  /-- The token, unless the characters form none. -/
  kind? : Option Kind
  length : Nat
  faults : List FaultReport

namespace Lexeme

/-- A lexeme without faults. -/
def token
    (kind : Kind)
    (length : Nat) :
    Lexeme :=
  ⟨some kind, length, []⟩

/-- A character that starts no token. -/
def stray
    (character : Char)
    (position : Position) :
    Lexeme :=
  ⟨none, 1,
    [⟨.unexpectedCharacter character,
      .upTo position (position.advance character)⟩]⟩

/-- A number that starts with the given character. -/
def number
    (character : Char)
    (rest : List Char) :
    Lexeme :=
  let length := numberLength rest
  token (.number (numberValue (character :: rest.take length))) (1 + length)

/-- A word that starts with the given character. -/
def word
    (character : Char)
    (rest : List Char) :
    Lexeme :=
  let tail := rest.takeWhile continuesWord
  token (wordKind (String.ofList (character :: tail))) (1 + tail.length)

/-- A string that starts with the given quote. -/
def string
    (quote : Char)
    (rest : List Char)
    (position : Position) :
    Lexeme :=
  let tail := stringTail quote position (position.advance quote) rest
  ⟨some (.string (String.ofList tail.value)), 1 + tail.length, tail.faults⟩

/-- A lexeme that starts with a hyphen: an edge operator or a number. -/
def hyphen
    (rest : List Char)
    (position : Position) :
    Lexeme :=
  match rest with
  | '-' :: _ =>
      token (.operator .undirected) 2
  | '>' :: _ =>
      token (.operator .forward) 2
  | next :: _ =>
      if next.isDigit then
        number '-' rest
      else
        stray '-' position
  | [] =>
      stray '-' position

/-- The lexeme at the head of a text that starts with the given character. -/
def ofHead
    (character : Char)
    (rest : List Char)
    (position : Position) :
    Lexeme :=
  if character = '"' || character = '\'' then
    string character rest position
  else if character.isDigit then
    number character rest
  else if startsWord character then
    word character rest
  else if character = '-' then
    hyphen rest position
  else if character = '<' && rest.head? = some '-' then
    token (.operator .backward) 2
  else
    match Mark.ofCharacter? character with
    | some mark =>
        token (.mark mark) 1
    | none =>
        stray character position

/-- Every lexeme takes up at least one character. -/
theorem length_ofHead_pos
    (character : Char)
    (rest : List Char)
    (position : Position) :
    0 < (ofHead character rest position).length := by
  have hyphenPositive : 0 < (hyphen rest position).length := by
    unfold hyphen
    split
    · simp [token]
    · simp [token]
    · split
      · simp only [number, token]
        omega
      · simp [stray]
    · simp [stray]
  unfold ofHead
  split
  · simp only [string]
    omega
  split
  · simp only [number, token]
    omega
  split
  · simp only [word, token]
    omega
  split
  · exact hyphenPositive
  split
  · simp [token]
  split
  · simp [token]
  · simp [stray]

end Lexeme

namespace Scanner

/-- Step over a lexeme and record its faults. -/
def pass
    (scanner : Scanner)
    (lexeme : Lexeme) :
    Scanner :=
  (scanner.skip lexeme.length).report lexeme.faults

/-- Stepping over the lexeme at the head of a text leaves fewer characters. -/
theorem length_pass_lt
    {ahead : Scanner}
    {character : Char}
    {rest : List Char}
    {bound : Nat}
    (heads : ahead.rest = character :: rest)
    (bounded : ahead.rest.length ≤ bound) :
    (ahead.pass
        (Lexeme.ofHead character rest ahead.position)).rest.length <
      bound := by
  have positive := Lexeme.length_ofHead_pos character rest ahead.position
  rw [heads, List.length_cons] at bounded
  simp only [pass, rest_report, rest_skip, List.length_drop, heads,
    List.length_cons]
  omega

/--
All tokens from the current position on, and the scanner after them.

The limit of errors is looked at after every token and, when characters were
dropped, after the blanks that follow them.
-/
def tokens
    (scanner : Scanner) :
    List Token × Scanner :=
  let ahead := scanner.skipSeparators
  if ahead.isFull then
    ([ahead.endToken], ahead)
  else
    match heads : ahead.rest with
    | [] =>
        ([ahead.endToken], ahead)
    | character :: rest =>
        let lexeme := Lexeme.ofHead character rest ahead.position
        let next := ahead.pass lexeme
        have : next.rest.length < scanner.rest.length :=
          length_pass_lt heads (length_skipSeparators_le scanner)
        match lexeme.kind? with
        | none =>
            next.tokens
        | some kind =>
            let token : Token := ⟨kind, .upTo ahead.position next.position⟩
            if next.isFull then
              ([token, next.endToken], next)
            else
              let (later, last) := next.tokens
              (token :: later, last)
termination_by scanner.rest.length

end Scanner

/-- The tokens of a text, of which the last ends it, and the faults found. -/
structure Scan where
  tokens : List Token
  faults : List FaultReport

/-- Cut a text into tokens. -/
def scan
    (text : List Char) :
    Scan :=
  let (tokens, last) := (Scanner.ofText text).tokens
  ⟨tokens, last.faults⟩

end GraphScript.Token
