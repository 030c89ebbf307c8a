import GraphScript.Proofs.Token.Lexemes

namespace GraphScript.Token

/-!
# Lexemes without faults

What the scanner cuts off a text without a fault is a spelling of the token that
it returns. The cases are those of the scanner: it looks at the first character
of a text and reads on by the rules for words, numerals, strings or signs.
-/

namespace Lexeme

variable
  {first : Char}
  {kind : Kind}
  {text rest : List Char}
  {position : Position}

/-- Whether a lexeme is the token of a spelling at the head of a text. -/
def StartsText
    (lexeme : Lexeme)
    (source : List Char) :
    Prop :=
  ∃ kind text after,
    source = text ++ after ∧
      lexeme = token kind text.length ∧
      Spelled kind text

/-! ## Words -/

/-- A word is spelled as the kind it is taken for. -/
theorem wordKind_spelled
    (isWord : Word text) :
    Spelled (wordKind (String.ofList text)) text := by
  unfold wordKind
  cases isKeyword : Keyword.ofText? (String.ofList text) with
  | some word =>
      have isText : word.text = String.ofList text := by
        simpa using List.find?_some isKeyword
      have spelled := Spelled.keyword word
      rw [isText, String.toList_ofList] at spelled
      exact spelled
  | none =>
      have isName : Word (String.ofList text).toList := by
        rwa [String.toList_ofList]
      have spelled := Spelled.identifier isName (ofText?_eq_none_iff.1 isKeyword)
      rw [String.toList_ofList] at spelled
      exact spelled

/-- A word is spelled by the characters it takes up. -/
theorem word_startsText
    (starts : IsLetter first ∨ first = '_') :
    (word first rest).StartsText (first :: rest) := by
  have isWord : Word (first :: rest.takeWhile continuesWord) := by
    apply Word.letters starts
    intro character member
    exact continuesWord_iff.1 (List.mem_takeWhile_imp member)
  refine ⟨_, first :: rest.takeWhile continuesWord,
    rest.dropWhile continuesWord, ?_, ?_, wordKind_spelled isWord⟩
  · rw [List.cons_append, List.takeWhile_append_dropWhile]
  · rw [word, List.length_cons, Nat.add_comm]

/-! ## Numerals -/

/-- A text starts with a fraction, which may be empty. -/
theorem exists_fraction
    (source : List Char) :
    ∃ fraction after,
      source = fraction ++ after ∧
        fractionLength source = fraction.length ∧
        Fraction fraction := by
  unfold fractionLength
  split
  · next rest =>
      have isSplit :=
        List.takeWhile_append_dropWhile (p := Char.isDigit) (l := rest)
      split
      · exact ⟨[], _, rfl, rfl, .missing⟩
      · next count isLength =>
          refine ⟨'.' :: rest.takeWhile Char.isDigit,
            rest.dropWhile Char.isDigit, ?_, ?_, .point ⟨?_, ?_⟩⟩
          · rw [List.cons_append, isSplit]
          · rw [List.length_cons, isLength]
          · apply List.ne_nil_of_length_pos
            omega
          · intro character member
            exact isDigit_iff.1 (List.mem_takeWhile_imp member)
  · exact ⟨[], _, rfl, rfl, .missing⟩

/-- What is counted as the rest of a numeral are digits and a fraction. -/
theorem exists_digits_fraction
    (source : List Char) :
    ∃ fraction after,
      source = (source.takeWhile Char.isDigit ++ fraction) ++ after ∧
        numberLength source =
          (source.takeWhile Char.isDigit ++ fraction).length ∧
        Fraction fraction := by
  have isSplit :=
    List.takeWhile_append_dropWhile (p := Char.isDigit) (l := source)
  obtain ⟨fraction, after, isLater, isLength, isFraction⟩ :=
    exists_fraction (source.dropWhile Char.isDigit)
  have isDropped :
      source.drop (source.takeWhile Char.isDigit).length =
        source.dropWhile Char.isDigit := by
    calc
      source.drop (source.takeWhile Char.isDigit).length =
          (source.takeWhile Char.isDigit ++
            source.dropWhile Char.isDigit).drop
              (source.takeWhile Char.isDigit).length := by
        rw [isSplit]
      _ = source.dropWhile Char.isDigit :=
        List.drop_left
  refine ⟨fraction, after, ?_, ?_, isFraction⟩
  · rw [List.append_assoc, ← isLater, isSplit]
  · rw [numberLength, isDropped, isLength, List.length_append]

theorem isDigit_of_mem_takeWhile
    {character : Char}
    (member : character ∈ rest.takeWhile Char.isDigit) :
    IsDigit character :=
  isDigit_iff.1 (List.mem_takeWhile_imp member)

theorem number_startsText
    {tail after : List Char}
    (isNumeral : Numeral (first :: tail))
    (isRest : rest = tail ++ after)
    (isLength : numberLength rest = tail.length) :
    (number first rest).StartsText (first :: rest) := by
  obtain ⟨value, isValue⟩ := isNumeral.exists_value
  rw [isRest] at isLength ⊢
  exact ⟨.number value, first :: tail, after, rfl,
    number_append isLength isValue, .number isNumeral isValue⟩

/-- A number is spelled by the characters it takes up. -/
theorem number_startsText_of_isDigit
    (isDigit : IsDigit first) :
    (number first rest).StartsText (first :: rest) := by
  obtain ⟨fraction, after, isRest, isLength, isFraction⟩ :=
    exists_digits_fraction rest
  have isWhole : Digits (first :: rest.takeWhile Char.isDigit) := by
    constructor
    · exact List.cons_ne_nil _ _
    · intro character member
      rcases List.mem_cons.1 member with rfl | member
      · exact isDigit
      · exact isDigit_of_mem_takeWhile member
  exact number_startsText (.unsigned isWhole isFraction) isRest isLength

/-- What starts with a hyphen is spelled by the characters it takes up. -/
theorem hyphen_startsText
    (faultless : (hyphen rest position).faults = []) :
    (hyphen rest position).StartsText ('-' :: rest) := by
  unfold hyphen at faultless ⊢
  split
  · next later =>
      exact ⟨_, _, later, rfl, rfl, .operator .undirected⟩
  · next later =>
      exact ⟨_, _, later, rfl, rfl, .operator .forward⟩
  · next digit later notHyphen notAngle =>
      split
      · next isDigit =>
          obtain ⟨fraction, after, isRest, isLength, isFraction⟩ :=
            exists_digits_fraction (digit :: later)
          have isWhole :
              Digits ((digit :: later).takeWhile Char.isDigit) := by
            constructor
            · rw [List.takeWhile_cons_of_pos isDigit]
              exact List.cons_ne_nil _ _
            · intro character member
              exact isDigit_of_mem_takeWhile member
          exact number_startsText (.negative isWhole isFraction) isRest isLength
      · simp_all [stray]
  · cases faultless

/-! ## Strings -/

/-- An escape letter stands for its character in any string. -/
theorem quotedBody_of_escaped?
    {quote letter value : Char}
    {contents written : List Char}
    (isEscape : escaped? letter = some value)
    (later : QuotedBody quote contents written) :
    QuotedBody quote (value :: contents) ('\\' :: letter :: written) := by
  unfold escaped? at isEscape
  split at isEscape
  · cases isEscape
    exact .escaped (.inl (.inl rfl)) later
  · cases isEscape
    exact .escaped (.inl (.inr rfl)) later
  · cases isEscape
    exact .escaped (.inr rfl) later
  · cases isEscape
    exact .lineFeed later
  · cases isEscape
    exact .tab later
  · cases isEscape

/-- A string without a fault is a body and the quote that ends it. -/
theorem exists_quotedBody_of_stringTail
    {quote : Char}
    {start here : Position}
    (faultless : (stringTail quote start here rest).faults = []) :
    ∃ contents written after,
      rest = written ++ quote :: after ∧
        stringTail quote start here rest =
          ⟨contents, written.length + 1, []⟩ ∧
        QuotedBody quote contents written := by
  fun_induction stringTail quote start here rest with
  | case1 =>
      cases faultless
  | case2 =>
      cases faultless
  | case3 =>
      cases faultless
  | case4 here letter rest next notLineFeed tail value isEscape inductionHypothesis =>
      obtain ⟨contents, written, after, isRest, isTail, isBody⟩ :=
        inductionHypothesis faultless
      refine ⟨value :: contents, '\\' :: letter :: written, after, ?_, ?_,
        quotedBody_of_escaped? isEscape isBody⟩
      · rw [isRest]
        rfl
      · rw [show tail = _ from isTail]
        simp [StringTail.after]
        omega
  | case5 =>
      cases faultless
  | case6 here rest =>
      exact ⟨[], [], rest, rfl, rfl, .nil⟩
  | case7 =>
      cases faultless
  | case8 here character rest notLast notEscape notQuote notLineFeed inductionHypothesis =>
      obtain ⟨contents, written, after, isRest, isTail, isBody⟩ :=
        inductionHypothesis faultless
      have notBackslash : character ≠ '\\' := by
        intro isBackslash
        cases rest with
        | nil =>
            exact notLast isBackslash rfl
        | cons letter rest =>
            exact notEscape letter rest isBackslash rfl
      refine ⟨character :: contents, character :: written, after, ?_, ?_,
        .plain notQuote notBackslash notLineFeed isBody⟩
      · rw [isRest]
        rfl
      · rw [isTail]
        simp [StringTail.after]
        omega

/-- A string without a fault is spelled by the characters it takes up. -/
theorem string_startsText
    (isQuote : IsQuote first)
    (faultless : (string first rest position).faults = []) :
    (string first rest position).StartsText (first :: rest) := by
  obtain ⟨contents, written, after, isRest, isTail, isBody⟩ :=
    exists_quotedBody_of_stringTail faultless
  refine ⟨.string (String.ofList contents), first :: (written ++ [first]),
    after, ?_, ?_, .string isQuote isBody⟩
  · rw [isRest]
    simp
  · rw [string, isTail]
    simp [token]
    omega

/-! ## Signs -/

/-- A sign without a fault is spelled by the characters it takes up. -/
theorem sign_startsText
    (notQuote : ¬ IsQuote first)
    (notDigit : ¬ IsDigit first)
    (notWord : ¬ (IsLetter first ∨ first = '_'))
    (notHyphen : first ≠ '-')
    (faultless : (ofHead first rest position).faults = []) :
    (ofHead first rest position).StartsText (first :: rest) := by
  rw [ofHead_of_sign notQuote notDigit notWord notHyphen] at faultless ⊢
  split
  · next isArrow =>
      rw [Bool.and_eq_true, decide_eq_true_eq, decide_eq_true_eq] at isArrow
      obtain ⟨rfl, isHead⟩ := isArrow
      obtain ⟨later, rfl⟩ := List.head?_eq_some_iff.1 isHead
      exact ⟨_, _, later, rfl, rfl, .operator .backward⟩
  · next notArrow =>
      rw [if_neg notArrow] at faultless
      cases isMark : Mark.ofCharacter? first with
      | some sign =>
          have isCharacter : sign.character = first := by
            simpa using List.find?_some isMark
          rw [← isCharacter]
          exact ⟨_, _, rest, rfl, rfl, .mark sign⟩
      | none =>
          rw [isMark] at faultless
          cases faultless

/-- A lexeme without a fault is the token of a spelling at the head of its text. -/
theorem ofHead_startsText
    (faultless : (ofHead first rest position).faults = []) :
    (ofHead first rest position).StartsText (first :: rest) := by
  by_cases isQuote : IsQuote first
  · rw [ofHead_of_isQuote isQuote] at faultless ⊢
    exact string_startsText isQuote faultless
  by_cases isDigit : IsDigit first
  · rw [ofHead_of_isDigit isDigit]
    exact number_startsText_of_isDigit isDigit
  by_cases starts : IsLetter first ∨ first = '_'
  · rw [ofHead_of_startsWord starts]
    exact word_startsText starts
  by_cases isHyphen : first = '-'
  · subst isHyphen
    exact hyphen_startsText faultless
  · exact sign_startsText isQuote isDigit starts isHyphen faultless

end Lexeme

end GraphScript.Token
