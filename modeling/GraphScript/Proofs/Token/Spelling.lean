import GraphScript.Proofs.Token.Gap
import Mathlib.Data.List.TakeDrop

namespace GraphScript.Token

/-!
# The spellings of tokens

The grammar of single tokens: reserved words, identifiers, numerals, operators,
marks and strings. A string may be written in several ways, between quotes of
either sort and with or without an escape where none is needed.
-/

/-! ## Words -/

/-- The letters of words. -/
def IsLetter
    (character : Char) :
    Prop :=
  ('A' ≤ character ∧ character ≤ 'Z') ∨ ('a' ≤ character ∧ character ≤ 'z')

instance : DecidablePred IsLetter :=
  fun _ => inferInstanceAs (Decidable (_ ∨ _))

/-- The digits of words and numerals. -/
def IsDigit
    (character : Char) :
    Prop :=
  '0' ≤ character ∧ character ≤ '9'

instance : DecidablePred IsDigit :=
  fun _ => inferInstanceAs (Decidable (_ ∧ _))

/-- A letter or an underscore, and then letters, digits and underscores. -/
inductive Word :
    List Char →
    Prop where
  | letters
      {first : Char}
      {rest : List Char}
      (starts : IsLetter first ∨ first = '_')
      (continues :
        ∀ character ∈ rest,
          IsLetter character ∨ IsDigit character ∨ character = '_') :
      Word (first :: rest)

/-! ## Numerals -/

/-- One or more digits. -/
structure Digits
    (text : List Char) :
    Prop where
  nonempty : text ≠ []
  areDigits : ∀ character ∈ text, IsDigit character

/-- A point and the digits after it, which may be missing. -/
inductive Fraction :
    List Char →
    Prop where
  | missing :
      Fraction []
  | point
      {digits : List Char}
      (isDigits : Digits digits) :
      Fraction ('.' :: digits)

/-- Digits with an optional hyphen before them and an optional fraction. -/
inductive Numeral :
    List Char →
    Prop where
  | unsigned
      {whole fraction : List Char}
      (isWhole : Digits whole)
      (isFraction : Fraction fraction) :
      Numeral (whole ++ fraction)
  | negative
      {whole fraction : List Char}
      (isWhole : Digits whole)
      (isFraction : Fraction fraction) :
      Numeral ('-' :: (whole ++ fraction))

/-! ## Strings -/

/-- The quotes around strings. -/
def IsQuote
    (character : Char) :
    Prop :=
  character = '"' ∨ character = '\''

/-- The contents of a string, and the ways to write them between two quotes. -/
inductive QuotedBody
    (quote : Char) :
    List Char →
    List Char →
    Prop where
  | nil :
      QuotedBody quote [] []
  | plain
      {character : Char}
      {contents written : List Char}
      (notQuote : character ≠ quote)
      (notBackslash : character ≠ '\\')
      (notLineFeed : character ≠ '\n')
      (later : QuotedBody quote contents written) :
      QuotedBody quote (character :: contents) (character :: written)
  | escaped
      {character : Char}
      {contents written : List Char}
      (mayEscape : IsQuote character ∨ character = '\\')
      (later : QuotedBody quote contents written) :
      QuotedBody quote (character :: contents) ('\\' :: character :: written)
  | lineFeed
      {contents written : List Char}
      (later : QuotedBody quote contents written) :
      QuotedBody quote ('\n' :: contents) ('\\' :: 'n' :: written)
  | tab
      {contents written : List Char}
      (later : QuotedBody quote contents written) :
      QuotedBody quote ('\t' :: contents) ('\\' :: 't' :: written)

/-- Every text can be written between either sort of quotes. -/
theorem exists_quotedBody
    {quote : Char}
    (isQuote : IsQuote quote)
    (contents : List Char) :
    ∃ written, QuotedBody quote contents written := by
  induction contents with
  | nil =>
      exact ⟨[], .nil⟩
  | cons character contents inductionHypothesis =>
      obtain ⟨written, later⟩ := inductionHypothesis
      by_cases isSpecial : character = quote ∨ character = '\\'
      · have mayEscape : IsQuote character ∨ character = '\\' := by
          rcases isSpecial with rfl | isBackslash
          · exact .inl isQuote
          · exact .inr isBackslash
        exact ⟨_, .escaped mayEscape later⟩
      · rw [not_or] at isSpecial
        by_cases isLineFeed : character = '\n'
        · rw [isLineFeed]
          exact ⟨_, .lineFeed later⟩
        · exact ⟨_, .plain isSpecial.1 isSpecial.2 isLineFeed later⟩

/-! ## Tokens -/

/-- What a token says, and the texts that say it. -/
inductive Spelled :
    Kind →
    List Char →
    Prop where
  | keyword
      (word : Keyword) :
      Spelled (.keyword word) word.text.toList
  | identifier
      {name : String}
      (isWord : Word name.toList)
      (notReserved : ∀ word : Keyword, name ≠ word.text) :
      Spelled (.identifier name) name.toList
  | number
      {text : List Char}
      {value : Float}
      (isNumeral : Numeral text)
      (isValue : Decimal.ofText? text = some value) :
      Spelled (.number value) text
  | operator
      (sign : EdgeOperator) :
      Spelled (.operator sign) sign.text.toList
  | mark
      (sign : Mark) :
      Spelled (.mark sign) [sign.character]
  | string
      {quote : Char}
      {contents written : List Char}
      (isQuote : IsQuote quote)
      (isBody : QuotedBody quote contents written) :
      Spelled (.string (String.ofList contents))
        (quote :: (written ++ [quote]))

/-! ## Character classes -/

/-- The digits are told as the scanner tells them. -/
theorem isDigit_iff
    {character : Char} :
    character.isDigit = true ↔ IsDigit character := by
  simp [Char.isDigit, IsDigit, Char.le_def]

/-- The letters are told as the scanner tells them. -/
theorem isLetter_iff
    {character : Char} :
    character.isAlpha = true ↔ IsLetter character := by
  have isUpper :
      character.isUpper = true ↔ 'A' ≤ character ∧ character ≤ 'Z' :=
    decide_eq_true_iff
  have isLower :
      character.isLower = true ↔ 'a' ≤ character ∧ character ≤ 'z' :=
    Bool.and_eq_true_iff.trans
      (and_congr decide_eq_true_iff decide_eq_true_iff)
  have isEither :
      character.isAlpha = true ↔
        character.isUpper = true ∨ character.isLower = true :=
    Bool.or_eq_true_iff
  rw [isEither, isUpper, isLower, IsLetter]

/-- A word starts with a letter or an underscore. -/
theorem startsWord_iff
    {character : Char} :
    startsWord character = true ↔ IsLetter character ∨ character = '_' := by
  rw [startsWord, Bool.or_eq_true, isLetter_iff, decide_eq_true_eq]

/-- A word continues with letters, digits and underscores. -/
theorem continuesWord_iff
    {character : Char} :
    continuesWord character = true ↔
      IsLetter character ∨ IsDigit character ∨ character = '_' := by
  rw [continuesWord, Char.isAlphanum, Bool.or_eq_true, Bool.or_eq_true,
    isLetter_iff, isDigit_iff, decide_eq_true_eq, or_assoc]

/-- No word starts with a digit. -/
theorem not_startsWord_of_isDigit
    {character : Char}
    (isDigit : IsDigit character) :
    ¬ (IsLetter character ∨ character = '_') := by
  rintro ((isUpper | isLower) | rfl)
  · exact absurd (Char.le_trans isUpper.1 isDigit.2) (by decide)
  · exact absurd (Char.le_trans isLower.1 isDigit.2) (by decide)
  · exact absurd isDigit (by decide)

/-! ## Reserved words -/

/-- The text of a keyword is that keyword. -/
theorem ofText?_text
    (word : Keyword) :
    Keyword.ofText? word.text = some word := by
  cases word
  all_goals rfl

/-- Any other name is no keyword. -/
theorem ofText?_eq_none_iff
    {name : String} :
    Keyword.ofText? name = none ↔ ∀ word : Keyword, name ≠ word.text := by
  unfold Keyword.ofText?
  rw [List.find?_eq_none]
  simp [Keyword.mem_all, eq_comm]

/-- What starts as a word and continues as one is a word. -/
theorem Word.of_all
    {first : Char}
    {rest : List Char}
    (starts : startsWord first = true)
    (continues : rest.all continuesWord = true) :
    Word (first :: rest) := by
  apply Word.letters (startsWord_iff.1 starts)
  intro character member
  exact continuesWord_iff.1 (List.all_eq_true.1 continues character member)

/-- Every reserved word has the form of an identifier. -/
theorem word_text
    (word : Keyword) :
    Word word.text.toList := by
  cases word
  all_goals exact .of_all rfl rfl

/-! ## The values of numerals -/

/-- Digits are taken up to a character of another sort. -/
theorem takeWhile_isDigit_append
    {digits rest : List Char}
    (areDigits : ∀ character ∈ digits, IsDigit character)
    (stops : ∀ character ∈ rest.head?, ¬ IsDigit character) :
    (digits ++ rest).takeWhile Char.isDigit = digits := by
  apply takeWhile_append_of_stop
  · intro character member
    exact isDigit_iff.2 (areDigits character member)
  · intro character isHead
    exact Bool.eq_false_iff.2 (mt isDigit_iff.1 (stops character isHead))

/-- Digits are taken up to the first character that is none. -/
theorem spanDigits_append
    {digits rest : List Char}
    (areDigits : ∀ character ∈ digits, IsDigit character)
    (stops : ∀ character ∈ rest.head?, ¬ IsDigit character) :
    Decimal.spanDigits (digits ++ rest) = (digits, rest) := by
  have taken := takeWhile_isDigit_append areDigits stops
  have dropped : (digits ++ rest).dropWhile Char.isDigit = rest := by
    have whole :=
      List.takeWhile_append_dropWhile (p := Char.isDigit) (l := digits ++ rest)
    rw [taken] at whole
    exact List.append_cancel_left whole
  rw [Decimal.spanDigits, List.span_eq_takeWhile_dropWhile, taken, dropped]

/-- No digit stands at the head of a fraction. -/
theorem Fraction.stops
    {fraction : List Char}
    (isFraction : Fraction fraction) :
    ∀ character ∈ fraction.head?, ¬ IsDigit character := by
  intro character isHead
  cases isFraction with
  | missing =>
      cases isHead
  | point =>
      cases isHead
      decide

/-- A fraction is read up to its end. -/
theorem Fraction.exists_splitFraction
    {fraction : List Char}
    (isFraction : Fraction fraction) :
    ∃ digits, Decimal.splitFraction fraction = (digits, []) := by
  cases isFraction with
  | missing =>
      exact ⟨[], rfl⟩
  | @point digits isDigits =>
      have toEnd : Decimal.spanDigits (digits ++ []) = (digits, []) :=
        spanDigits_append isDigits.areDigits (by simp)
      rw [List.append_nil] at toEnd
      exact ⟨digits, toEnd⟩

/-- Digits with an optional fraction are a number. -/
theorem exists_finite?
    {whole fraction : List Char}
    (isWhole : Digits whole)
    (isFraction : Fraction fraction)
    (negative : Bool) :
    ∃ value, Decimal.finite? negative (whole ++ fraction) = some value := by
  have nonempty : whole.isEmpty = false := by
    rw [List.isEmpty_eq_false_iff]
    exact isWhole.nonempty
  have split := spanDigits_append isWhole.areDigits isFraction.stops
  obtain ⟨digits, splitLater⟩ := isFraction.exists_splitFraction
  rw [Decimal.finite?, split]
  simp [splitLater, nonempty, Decimal.exponent?]

/-- Text that starts with a digit has no sign. -/
theorem splitSign_of_isDigit
    {first : Char}
    {rest : List Char}
    (isDigit : IsDigit first) :
    Decimal.splitSign (first :: rest) = (false, first :: rest) := by
  unfold Decimal.splitSign
  split
  · next isCons =>
      cases isCons
      exact absurd isDigit (by decide)
  · next isCons =>
      cases isCons
      exact absurd isDigit (by decide)
  · rfl

/-- Every numeral has a value. -/
theorem Numeral.exists_value
    {text : List Char}
    (isNumeral : Numeral text) :
    ∃ value, Decimal.ofText? text = some value := by
  have isFinite :
      ∃ value,
        Decimal.finite? (Decimal.splitSign text).1 (Decimal.splitSign text).2 =
          some value := by
    cases isNumeral with
    | @unsigned whole fraction isWhole isFraction =>
        obtain ⟨first, rest, rfl⟩ := List.exists_cons_of_ne_nil isWhole.nonempty
        rw [List.cons_append,
          splitSign_of_isDigit (isWhole.areDigits first List.mem_cons_self)]
        exact exists_finite? isWhole isFraction false
    | negative isWhole isFraction =>
        exact exists_finite? isWhole isFraction true
  obtain ⟨value, isValue⟩ := isFinite
  unfold Decimal.ofText?
  dsimp only
  split_ifs
  · exact ⟨_, rfl⟩
  · exact ⟨_, rfl⟩
  · exact ⟨value, isValue⟩

/-- A numeral is read as the number it denotes. -/
theorem Numeral.ofText?_eq_numberValue
    {text : List Char}
    (isNumeral : Numeral text) :
    Decimal.ofText? text = some (numberValue text) := by
  obtain ⟨value, isValue⟩ := isNumeral.exists_value
  rw [numberValue, isValue]
  rfl

/-! ## Spellings and lines -/

/-- Texts on one line whose end is not trimmed away as a line's end. -/
structure StaysOnLine
    (text : List Char) :
    Prop where
  nonempty : text ≠ []
  oneLine : '\n' ∉ text
  endsVisibly : text.getLast? ≠ some '\r'

namespace StaysOnLine

/-- A text without line ends stays on its line. -/
theorem of_forall
    {text : List Char}
    (nonempty : text ≠ [])
    (areVisible : ∀ character ∈ text, character ≠ '\n' ∧ character ≠ '\r') :
    StaysOnLine text := by
  refine ⟨nonempty, ?_, ?_⟩
  · intro member
    exact (areVisible _ member).1 rfl
  · intro isLast
    exact (areVisible _ (List.mem_of_getLast? isLast)).2 rfl

/-- A word stays on its line. -/
theorem of_word
    {text : List Char}
    (isWord : Word text) :
    StaysOnLine text := by
  cases isWord with
  | @letters first rest starts continues =>
      apply of_forall (List.cons_ne_nil _ _)
      intro character member
      have isPart :
          IsLetter character ∨ IsDigit character ∨ character = '_' := by
        rcases List.mem_cons.1 member with rfl | member
        · exact starts.imp_right Or.inr
        · exact continues character member
      constructor
      · rintro rfl
        exact absurd isPart (by decide)
      · rintro rfl
        exact absurd isPart (by decide)

/-- A numeral stays on its line. -/
theorem of_numeral
    {text : List Char}
    (isNumeral : Numeral text) :
    StaysOnLine text := by
  have arePoints :
      ∀ {whole fraction : List Char},
        Digits whole →
        Fraction fraction →
        ∀ character ∈ whole ++ fraction,
          IsDigit character ∨ character = '.' := by
    intro whole fraction isWhole isFraction character member
    rcases List.mem_append.1 member with member | member
    · exact .inl (isWhole.areDigits character member)
    · cases isFraction with
      | missing =>
          cases member
      | point isDigits =>
          rcases List.mem_cons.1 member with rfl | member
          · exact .inr rfl
          · exact .inl (isDigits.areDigits character member)
  have areParts :
      ∀ character ∈ text,
        IsDigit character ∨ character = '.' ∨ character = '-' := by
    intro character member
    cases isNumeral with
    | unsigned isWhole isFraction =>
        exact (arePoints isWhole isFraction character member).imp_right .inl
    | negative isWhole isFraction =>
        rcases List.mem_cons.1 member with rfl | member
        · exact .inr (.inr rfl)
        · exact (arePoints isWhole isFraction character member).imp_right .inl
  apply of_forall
  · cases isNumeral with
    | unsigned isWhole isFraction =>
        exact List.append_ne_nil_of_left_ne_nil isWhole.nonempty _
    | negative =>
        exact List.cons_ne_nil _ _
  · intro character member
    have isPart := areParts character member
    constructor
    · rintro rfl
      exact absurd isPart (by decide)
    · rintro rfl
      exact absurd isPart (by decide)

/-- No line feed stands between the quotes of a string. -/
theorem lineFeed_notMem_of_quotedBody
    {quote : Char}
    {contents written : List Char}
    (isBody : QuotedBody quote contents written) :
    '\n' ∉ written := by
  induction isBody with
  | nil =>
      exact List.not_mem_nil
  | plain _ _ notLineFeed _ inductionHypothesis =>
      simp [inductionHypothesis, Ne.symm notLineFeed]
  | @escaped character _ _ mayEscape _ inductionHypothesis =>
      have notLineFeed : '\n' ≠ character := by
        rintro rfl
        exact absurd mayEscape (by simp [IsQuote])
      simp [inductionHypothesis, notLineFeed]
  | lineFeed _ inductionHypothesis =>
      simp [inductionHypothesis]
  | tab _ inductionHypothesis =>
      simp [inductionHypothesis]

/-- A written string stays on its line. -/
theorem of_quotedBody
    {quote : Char}
    {contents written : List Char}
    (isQuote : IsQuote quote)
    (isBody : QuotedBody quote contents written) :
    StaysOnLine (quote :: (written ++ [quote])) := by
  refine ⟨List.cons_ne_nil _ _, ?_, ?_⟩
  · have notLineFeed : '\n' ≠ quote := by
      rintro rfl
      exact absurd isQuote (by simp [IsQuote])
    simp [lineFeed_notMem_of_quotedBody isBody, notLineFeed]
  · rw [← List.cons_append, List.getLast?_concat]
    rintro isReturn
    cases isReturn
    exact absurd isQuote (by simp [IsQuote])

end StaysOnLine

/-- Every spelling is on one line, and it is not trimmed at the end of the line. -/
theorem staysOnLine_of_spelled
    {kind : Kind}
    {text : List Char}
    (spelled : Spelled kind text) :
    StaysOnLine text := by
  cases spelled with
  | keyword word =>
      exact .of_word (word_text word)
  | identifier isWord =>
      exact .of_word isWord
  | number isNumeral =>
      exact .of_numeral isNumeral
  | operator sign =>
      cases sign
      all_goals exact ⟨by decide, by decide, by decide⟩
  | mark sign =>
      cases sign
      all_goals exact ⟨by decide, by decide, by decide⟩
  | string isQuote isBody =>
      exact .of_quotedBody isQuote isBody

end GraphScript.Token
