import GraphScript.Proofs.Token.Spelling

namespace GraphScript.Token

/-!
# Lexemes at the head of a text

A spelling of a token is cut off the front of a text as that token, provided
that the text ends behind it or goes on with a blank or a comment. What is cut
off without a fault is a spelling of its token.
-/

/-! ## What ends a lexeme -/

/-- The characters that a gap may start with. -/
def StartsGap
    (character : Char) :
    Prop :=
  IsBlank character ∨ character = '/'

instance : DecidablePred StartsGap :=
  fun _ => inferInstanceAs (Decidable (_ ∨ _))

/-- Whether a text ends the lexeme before it, whichever this is. -/
def EndsLexeme
    (rest : List Char) :
    Prop :=
  ∀ character ∈ rest.head?, StartsGap character

/-- Every lexeme ends with the text. -/
theorem endsLexeme_nil :
    EndsLexeme [] := by
  intro _ isHead
  cases isHead

/-- A gap that is not empty ends the lexeme before it. -/
theorem Gap.endsLexeme
    {atEnd : Bool}
    {gap : List Char}
    (isGap : Gap atEnd gap)
    (nonempty : gap ≠ [])
    (rest : List Char) :
    EndsLexeme (gap ++ rest) := by
  intro character isHead
  cases isGap with
  | nil =>
      exact absurd rfl nonempty
  | blank blank =>
      cases isHead
      exact .inl blank
  | lineComment =>
      cases isHead
      exact .inr rfl
  | blockComment =>
      cases isHead
      exact .inr rfl
  | lastLine =>
      cases isHead
      exact .inr rfl

namespace StartsGap

variable {character : Char}

/-- No character of a word or of a numeral starts a gap. -/
theorem continuesWord_eq_false
    (startsGap : StartsGap character) :
    continuesWord character = false := by
  rcases startsGap with (rfl | rfl | rfl | rfl) | rfl
  all_goals rfl

/-- No gap starts with a digit. -/
theorem not_isDigit
    (startsGap : StartsGap character) :
    ¬ IsDigit character := by
  rcases startsGap with (rfl | rfl | rfl | rfl) | rfl
  all_goals decide

/-- A character that starts a gap starts no lexeme. -/
theorem ofHead_eq_stray
    (startsGap : StartsGap character)
    (rest : List Char)
    (position : Position) :
    Lexeme.ofHead character rest position =
      Lexeme.stray character position := by
  rcases startsGap with (rfl | rfl | rfl | rfl) | rfl
  all_goals rfl

end StartsGap

namespace Lexeme

variable
  {first : Char}
  {kind : Kind}
  {text rest : List Char}
  {position : Position}

/-- Whether a text is cut off as one token where the given rest follows it. -/
def CutsOff
    (kind : Kind)
    (text rest : List Char) :
    Prop :=
  ∃ first tail,
    text = first :: tail ∧
      ∀ position,
        ofHead first (tail ++ rest) position = token kind text.length

/-! ## The branches of the scanner -/

/-- The scanner's test for a quote tells exactly the two quotes. -/
theorem isQuote_iff :
    (first = '"' || first = '\'') = true ↔ IsQuote first := by
  simp [IsQuote]

/-- A quote starts a string. -/
theorem ofHead_of_isQuote
    (isQuote : IsQuote first) :
    ofHead first rest position = string first rest position := by
  unfold ofHead
  rw [if_pos (isQuote_iff.2 isQuote)]

/-- A digit starts a number. -/
theorem ofHead_of_isDigit
    (isDigit : IsDigit first) :
    ofHead first rest position = number first rest := by
  have notQuote : ¬ IsQuote first := by
    rintro (rfl | rfl)
    all_goals exact absurd isDigit (by decide)
  unfold ofHead
  rw [if_neg (mt isQuote_iff.1 notQuote), if_pos (isDigit_iff.2 isDigit)]

/-- A letter or an underscore starts a word. -/
theorem ofHead_of_startsWord
    (starts : IsLetter first ∨ first = '_') :
    ofHead first rest position = word first rest := by
  have notQuote : ¬ IsQuote first := by
    rintro (rfl | rfl)
    all_goals exact absurd starts (by decide)
  have notDigit : ¬ IsDigit first := by
    intro isDigit
    exact not_startsWord_of_isDigit isDigit starts
  unfold ofHead
  rw [if_neg (mt isQuote_iff.1 notQuote), if_neg (mt isDigit_iff.1 notDigit),
    if_pos (startsWord_iff.2 starts)]

/--
Of the remaining characters, `<-` is an operator, a mark is itself and all else is
stray.
-/
theorem ofHead_of_sign
    (notQuote : ¬ IsQuote first)
    (notDigit : ¬ IsDigit first)
    (notWord : ¬ (IsLetter first ∨ first = '_'))
    (notHyphen : first ≠ '-') :
    ofHead first rest position =
      if first = '<' && rest.head? = some '-' then
        token (.operator .backward) 2
      else
        match Mark.ofCharacter? first with
        | some mark =>
            token (.mark mark) 1
        | none =>
            stray first position := by
  unfold ofHead
  rw [if_neg (mt isQuote_iff.1 notQuote), if_neg (mt isDigit_iff.1 notDigit),
    if_neg (mt startsWord_iff.1 notWord)]
  exact if_neg notHyphen

/-- A hyphen is told apart by what follows it. -/
theorem ofHead_hyphen :
    ofHead '-' rest position = hyphen rest position :=
  rfl

/-- A hyphen before a digit starts a number. -/
theorem hyphen_of_isDigit
    (isHead : rest.head? = some first)
    (isDigit : IsDigit first) :
    hyphen rest position = number '-' rest := by
  obtain ⟨later, rfl⟩ := List.head?_eq_some_iff.1 isHead
  unfold hyphen
  split
  · next isCons =>
      cases isCons
      exact absurd isDigit (by decide)
  · next isCons =>
      cases isCons
      exact absurd isDigit (by decide)
  · next isCons =>
      cases isCons
      rw [if_pos (isDigit_iff.2 isDigit)]
  · next isNil =>
      cases isNil

/-! ## Words -/

/-- A word is cut off as a whole where no character of a word follows it. -/
theorem cutsOff_word
    (isWord : Word text)
    (ends : EndsLexeme rest) :
    CutsOff (wordKind (String.ofList text)) text rest := by
  cases isWord with
  | @letters first tail starts continues =>
      have wordTaken : (tail ++ rest).takeWhile continuesWord = tail := by
        apply takeWhile_append_of_stop
        · intro character member
          exact continuesWord_iff.2 (continues character member)
        · intro character isHead
          exact (ends character isHead).continuesWord_eq_false
      refine ⟨first, tail, rfl, ?_⟩
      intro position
      rw [ofHead_of_startsWord starts, word, wordTaken, List.length_cons,
        Nat.add_comm]

/-! ## Numerals -/

/-- A fraction is counted to its end and no further. -/
theorem fractionLength_append
    {fraction : List Char}
    (isFraction : Fraction fraction)
    (ends : EndsLexeme rest) :
    fractionLength (fraction ++ rest) = fraction.length := by
  cases isFraction with
  | missing =>
      rw [List.nil_append]
      unfold fractionLength
      split
      · exact absurd (ends '.' rfl) (by decide)
      · rfl
  | @point digits isDigits =>
      have digitsTaken : (digits ++ rest).takeWhile Char.isDigit = digits := by
        apply takeWhile_isDigit_append isDigits.areDigits
        intro character isHead
        exact (ends character isHead).not_isDigit
      obtain ⟨count, isLength⟩ :=
        Nat.exists_eq_succ_of_ne_zero
          (mt List.length_eq_zero_iff.1 isDigits.nonempty)
      rw [List.cons_append, fractionLength, digitsTaken, isLength,
        List.length_cons, isLength]

/-- The characters of a numeral are counted up to its end. -/
theorem numberLength_append
    {digits fraction : List Char}
    (areDigits : ∀ character ∈ digits, IsDigit character)
    (isFraction : Fraction fraction)
    (ends : EndsLexeme rest) :
    numberLength (digits ++ (fraction ++ rest)) =
      (digits ++ fraction).length := by
  have digitsTaken :
      (digits ++ (fraction ++ rest)).takeWhile Char.isDigit = digits := by
    apply takeWhile_isDigit_append areDigits
    intro character isHead
    cases isFraction with
    | missing =>
        exact (ends character isHead).not_isDigit
    | point =>
        cases isHead
        decide
  rw [numberLength, digitsTaken, List.drop_left,
    fractionLength_append isFraction ends, List.length_append]

/-- What follows the first character of a numeral is counted up to its end. -/
theorem number_append
    {tail : List Char}
    {value : Float}
    (isLength : numberLength (tail ++ rest) = tail.length)
    (isValue : Decimal.ofText? (first :: tail) = some value) :
    number first (tail ++ rest) =
      token (.number value) (first :: tail).length := by
  rw [number, isLength, List.take_left, numberValue, isValue, List.length_cons,
    Nat.add_comm]
  rfl

/-- A numeral is cut off as the number it denotes. -/
theorem cutsOff_number
    {value : Float}
    (isNumeral : Numeral text)
    (isValue : Decimal.ofText? text = some value)
    (ends : EndsLexeme rest) :
    CutsOff (.number value) text rest := by
  cases isNumeral with
  | @unsigned whole fraction isWhole isFraction =>
      obtain ⟨first, digits, rfl⟩ :=
        List.exists_cons_of_ne_nil isWhole.nonempty
      have areDigits : ∀ character ∈ digits, IsDigit character := by
        intro character member
        exact isWhole.areDigits character (List.mem_cons_of_mem _ member)
      have isLength :
          numberLength ((digits ++ fraction) ++ rest) =
            (digits ++ fraction).length := by
        rw [List.append_assoc]
        exact numberLength_append areDigits isFraction ends
      refine ⟨first, digits ++ fraction, rfl, ?_⟩
      intro position
      rw [ofHead_of_isDigit (isWhole.areDigits first List.mem_cons_self)]
      exact number_append isLength isValue
  | @negative whole fraction isWhole isFraction =>
      obtain ⟨first, digits, rfl⟩ :=
        List.exists_cons_of_ne_nil isWhole.nonempty
      have isLength :
          numberLength ((first :: digits ++ fraction) ++ rest) =
            (first :: digits ++ fraction).length := by
        rw [List.append_assoc]
        exact numberLength_append isWhole.areDigits isFraction ends
      refine ⟨'-', first :: digits ++ fraction, rfl, ?_⟩
      intro position
      have isDigit := isWhole.areDigits first List.mem_cons_self
      rw [ofHead_hyphen, hyphen_of_isDigit rfl isDigit]
      exact number_append isLength isValue

/-! ## Strings -/

section Strings

variable
  {quote character letter value : Char}
  {start here : Position}

/--
Inside a string, the quote closes it, a line feed leaves it open and any other
character is its own content.
-/
theorem stringTail_of_notBackslash
    (notBackslash : character ≠ '\\') :
    stringTail quote start here (character :: rest) =
      if character = quote then
        ⟨[], 1, []⟩
      else if character = '\n' then
        .unterminated quote start here
      else
        (stringTail quote start (here.advance character) rest).after
          1 [character] := by
  rw [stringTail]
  · intro isBackslash _
    exact notBackslash isBackslash
  · intro _ _ isBackslash _
    exact notBackslash isBackslash

/-- A known escape is two characters of the text and one of the content. -/
theorem stringTail_of_escaped?
    (isEscape : escaped? letter = some value) :
    stringTail quote start here ('\\' :: letter :: rest) =
      (stringTail quote start ((here.advance '\\').advance letter) rest).after
        2 [value] := by
  have notLineFeed : letter ≠ '\n' := by
    rintro rfl
    cases isEscape
  rw [stringTail, if_neg notLineFeed, isEscape]

/-- Quotes and backslashes are escaped as themselves. -/
theorem escaped?_of_mayEscape
    (mayEscape : IsQuote character ∨ character = '\\') :
    escaped? character = some character := by
  rcases mayEscape with (rfl | rfl) | rfl
  all_goals rfl

/-- A backslash is no quote. -/
theorem notBackslash_of_isQuote
    (isQuote : IsQuote quote) :
    quote ≠ '\\' := by
  rcases isQuote with rfl | rfl
  all_goals decide

/-- A string is read up to the quote that ends it, without a fault. -/
theorem stringTail_append
    {contents written : List Char}
    (isQuote : IsQuote quote)
    (isBody : QuotedBody quote contents written)
    (here : Position) :
    stringTail quote start here (written ++ quote :: rest) =
      ⟨contents, written.length + 1, []⟩ := by
  induction isBody generalizing here with
  | nil =>
      rw [List.nil_append,
        stringTail_of_notBackslash (notBackslash_of_isQuote isQuote),
        if_pos rfl]
      rfl
  | plain notQuote notBackslash notLineFeed _ inductionHypothesis =>
      rw [List.cons_append, stringTail_of_notBackslash notBackslash,
        if_neg notQuote, if_neg notLineFeed, inductionHypothesis]
      simp [StringTail.after]
      omega
  | escaped mayEscape _ inductionHypothesis =>
      rw [List.cons_append, List.cons_append,
        stringTail_of_escaped? (escaped?_of_mayEscape mayEscape),
        inductionHypothesis]
      simp [StringTail.after]
      omega
  | lineFeed _ inductionHypothesis =>
      have isEscape : escaped? 'n' = some '\n' := rfl
      rw [List.cons_append, List.cons_append, stringTail_of_escaped? isEscape,
        inductionHypothesis]
      simp [StringTail.after]
      omega
  | tab _ inductionHypothesis =>
      have isEscape : escaped? 't' = some '\t' := rfl
      rw [List.cons_append, List.cons_append, stringTail_of_escaped? isEscape,
        inductionHypothesis]
      simp [StringTail.after]
      omega

/--
A written string is cut off with its contents, up to and including its closing
quote.
-/
theorem cutsOff_string
    {contents written : List Char}
    (isQuote : IsQuote quote)
    (isBody : QuotedBody quote contents written) :
    CutsOff (.string (String.ofList contents)) (quote :: (written ++ [quote]))
      rest := by
  refine ⟨quote, written ++ [quote], rfl, ?_⟩
  intro position
  rw [ofHead_of_isQuote isQuote, string, List.append_assoc,
    List.singleton_append, stringTail_append isQuote isBody]
  simp [token]
  omega

end Strings

/-! ## Signs -/

/-- An operator is cut off whatever follows it. -/
theorem cutsOff_operator
    (sign : EdgeOperator)
    (rest : List Char) :
    CutsOff (.operator sign) sign.text.toList rest := by
  cases sign with
  | undirected =>
      exact ⟨'-', ['-'], rfl, fun _ => rfl⟩
  | forward =>
      exact ⟨'-', ['>'], rfl, fun _ => rfl⟩
  | backward =>
      exact ⟨'<', ['-'], rfl, fun _ => rfl⟩

/-- A mark is cut off whatever follows it. -/
theorem cutsOff_mark
    (sign : Mark)
    (rest : List Char) :
    CutsOff (.mark sign) [sign.character] rest := by
  refine ⟨sign.character, [], rfl, ?_⟩
  intro position
  cases sign
  all_goals rfl

/-! ## Every spelling is cut off as its token -/

/-- A spelling of a token is cut off as this token, whatever gap follows it. -/
theorem cutsOff_of_spelled
    (spelled : Spelled kind text)
    (ends : EndsLexeme rest) :
    CutsOff kind text rest := by
  cases spelled with
  | keyword word =>
      have isCut := cutsOff_word (word_text word) ends
      rw [String.ofList_toList, wordKind, ofText?_text] at isCut
      exact isCut
  | @identifier name isWord notReserved =>
      have isCut := cutsOff_word isWord ends
      rw [String.ofList_toList, wordKind, ofText?_eq_none_iff.2 notReserved] at isCut
      exact isCut
  | number isNumeral isValue =>
      exact cutsOff_number isNumeral isValue ends
  | operator sign =>
      exact cutsOff_operator sign rest
  | mark sign =>
      exact cutsOff_mark sign rest
  | string isQuote isBody =>
      exact cutsOff_string isQuote isBody

/-- No gap starts at the head of a spelling. -/
theorem startsNoGap_of_cutsOff
    (isCut : CutsOff kind text rest) :
    StartsNoGap (text ++ rest) := by
  obtain ⟨first, tail, rfl, isToken⟩ := isCut
  have notGap : ¬ StartsGap first := by
    intro startsGap
    have isStray := isToken .origin
    rw [startsGap.ofHead_eq_stray] at isStray
    cases isStray
  intro character later isCons
  cases isCons
  constructor
  · rw [Bool.eq_false_iff]
    intro blank
    exact notGap (.inl (isBlank_iff.1 blank))
  · rintro rfl
    exact absurd (by decide) notGap

end Lexeme

end GraphScript.Token
