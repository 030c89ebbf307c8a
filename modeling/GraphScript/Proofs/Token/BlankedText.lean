import GraphScript.Proofs.Token.FaultlessLexemes

namespace GraphScript.Token

/-!
# Lexemes in front of blanked characters

The scanner looks past the end of a lexeme only to see whether it goes on. A space
never makes a lexeme longer, so a lexeme stays what it is where characters behind
it are replaced by spaces.
-/

/-- The second text is the first one with spaces for the bytes of some characters. -/
inductive Blanked :
    List Char →
    List Char →
    Prop where
  | nil :
      Blanked [] []
  | kept
      (character : Char)
      {rest blankedRest : List Char}
      (later : Blanked rest blankedRest) :
      Blanked (character :: rest) (character :: blankedRest)
  | blanked
      (character : Char)
      {rest blankedRest : List Char}
      (later : Blanked rest blankedRest) :
      Blanked (character :: rest)
        (List.replicate character.utf8Size ' ' ++ blankedRest)

variable
  {first : Char}
  {kind : Kind}
  {text tail rest blankedRest : List Char}
  {position : Position}

/-- A text may be kept in front of what is blanked. -/
theorem Blanked.keptAll
    (text : List Char)
    (later : Blanked rest blankedRest) :
    Blanked (text ++ rest) (text ++ blankedRest) := by
  induction text with
  | nil =>
      exact later
  | cons character text inductionHypothesis =>
      exact .kept character inductionHypothesis

/-- A text of which all is kept is blanked. -/
theorem Blanked.refl
    (text : List Char) :
    Blanked text text := by
  have kept := Blanked.keptAll text .nil
  rwa [List.append_nil] at kept

/-- Every character has a byte, so at least one space stands for it. -/
theorem exists_spaces
    (character : Char) :
    ∃ count,
      List.replicate character.utf8Size ' ' = ' ' :: List.replicate count ' ' := by
  obtain ⟨count, isSize⟩ :=
    Nat.exists_eq_succ_of_ne_zero character.utf8Size_pos.ne'
  exact ⟨count, by rw [isSize, List.replicate_succ]⟩

/-! ## Runs of characters -/

/-- A run of characters ends where it ended before, since no space continues it. -/
theorem takeWhile_append_of_blanked
    {inClass : Char → Bool}
    (noSpace : inClass ' ' = false)
    (blanked : Blanked rest blankedRest)
    (ends : ((tail ++ rest).takeWhile inClass).length = tail.length) :
    (tail ++ blankedRest).takeWhile inClass =
      (tail ++ rest).takeWhile inClass := by
  induction tail with
  | nil =>
      have endsHere := List.length_eq_zero_iff.mp ends
      rw [endsHere]
      cases blanked with
      | nil =>
          rfl
      | kept character later =>
          rw [List.nil_append, List.takeWhile_cons] at endsHere ⊢
          split at endsHere
          · cases endsHere
          · next notInClass =>
              rw [if_neg notInClass]
      | blanked character later =>
          obtain ⟨count, areSpaces⟩ := exists_spaces character
          rw [areSpaces]
          simp [noSpace]
  | cons character tail inductionHypothesis =>
      simp only [List.cons_append, List.takeWhile_cons] at ends ⊢
      split at ends
      · next inside =>
          rw [if_pos inside, if_pos inside,
            inductionHypothesis (Nat.succ.inj ends)]
      · cases ends

/-! ## Words -/

/-- A word is cut off in front of blanked text as in front of the text itself. -/
theorem word_of_blanked
    (blanked : Blanked rest blankedRest)
    (isWord :
      Lexeme.word first (tail ++ rest) =
        Lexeme.token kind (first :: tail).length) :
    Lexeme.word first (tail ++ blankedRest) =
      Lexeme.token kind (first :: tail).length := by
  have isLength := congrArg Lexeme.length isWord
  simp only [Lexeme.word, Lexeme.token, List.length_cons] at isLength
  have ends :
      ((tail ++ rest).takeWhile continuesWord).length = tail.length := by
    omega
  rw [← isWord]
  unfold Lexeme.word
  rw [takeWhile_append_of_blanked rfl blanked ends]

/-! ## Numerals -/

/-- Without a point there is no fraction. -/
theorem fractionLength_of_notPoint
    {character : Char}
    (notPoint : character ≠ '.') :
    fractionLength (character :: rest) = 0 := by
  unfold fractionLength
  split
  · next isCons =>
      cases isCons
      exact absurd rfl notPoint
  · rfl

/-- A point starts a fraction if a digit follows it. -/
theorem fractionLength_point
    (rest : List Char) :
    fractionLength ('.' :: rest) =
      if (rest.takeWhile Char.isDigit).length = 0 then
        0
      else
        (rest.takeWhile Char.isDigit).length + 1 := by
  rw [fractionLength]
  split
  · next isZero =>
      rw [if_pos isZero]
  · next count isCount =>
      rw [isCount]
      rfl

/-- The digits behind a point end where they ended before. -/
theorem fractionLength_of_blanked
    (blanked : Blanked rest blankedRest)
    (ends : ((tail ++ rest).takeWhile Char.isDigit).length = tail.length) :
    fractionLength ('.' :: (tail ++ blankedRest)) =
      fractionLength ('.' :: (tail ++ rest)) := by
  rw [fractionLength_point, fractionLength_point,
    takeWhile_append_of_blanked rfl blanked ends]

/-- A digit counts as one character of a number. -/
theorem numberLength_cons_of_isDigit
    (isDigit : first.isDigit = true) :
    numberLength (first :: rest) = 1 + numberLength rest := by
  unfold numberLength
  rw [List.takeWhile_cons_of_pos isDigit]
  simp only [List.length_cons, List.drop_succ_cons]
  omega

/-- Behind the digits of a number only its fraction counts. -/
theorem numberLength_cons_of_notDigit
    (notDigit : ¬ first.isDigit = true) :
    numberLength (first :: rest) = fractionLength (first :: rest) := by
  unfold numberLength
  rw [List.takeWhile_cons_of_neg notDigit]
  simp

/-- A number ends at blanked text where it ended at the text itself. -/
theorem numberLength_of_blanked
    (blanked : Blanked rest blankedRest)
    (ends : numberLength (tail ++ rest) = tail.length) :
    numberLength (tail ++ blankedRest) = tail.length := by
  induction tail with
  | nil =>
      cases blanked with
      | nil =>
          exact ends
      | @kept character rest blankedRest later =>
          rw [List.nil_append] at ends ⊢
          by_cases isDigit : character.isDigit = true
          · rw [numberLength_cons_of_isDigit isDigit, List.length_nil] at ends
            omega
          · rw [numberLength_cons_of_notDigit isDigit] at ends ⊢
            by_cases isPoint : character = '.'
            · subst isPoint
              have noDigits :
                  (([] ++ rest).takeWhile Char.isDigit).length =
                    ([] : List Char).length := by
                rw [fractionLength_point] at ends
                split_ifs at ends with isZero
                exact isZero
              exact (fractionLength_of_blanked later noDigits).trans ends
            · exact fractionLength_of_notPoint isPoint
      | blanked character later =>
          obtain ⟨count, areSpaces⟩ := exists_spaces character
          rw [areSpaces]
          rfl
  | cons character tail inductionHypothesis =>
      rw [List.cons_append] at ends ⊢
      by_cases isDigit : character.isDigit = true
      · rw [numberLength_cons_of_isDigit isDigit, List.length_cons] at ends ⊢
        rw [inductionHypothesis (by omega), Nat.add_comm]
      · rw [numberLength_cons_of_notDigit isDigit] at ends ⊢
        by_cases isPoint : character = '.'
        · subst isPoint
          have allDigits :
              ((tail ++ rest).takeWhile Char.isDigit).length = tail.length := by
            rw [fractionLength_point] at ends
            split_ifs at ends
            exact Nat.succ.inj ends
          rw [fractionLength_of_blanked blanked allDigits, ends]
        · rw [fractionLength_of_notPoint isPoint] at ends
          cases ends

/-- A number is cut off in front of blanked text as in front of the text itself. -/
theorem number_of_blanked
    (blanked : Blanked rest blankedRest)
    (isNumber :
      Lexeme.number first (tail ++ rest) =
        Lexeme.token kind (first :: tail).length) :
    Lexeme.number first (tail ++ blankedRest) =
      Lexeme.token kind (first :: tail).length := by
  have isLength := congrArg Lexeme.length isNumber
  simp only [Lexeme.number, Lexeme.token, List.length_cons] at isLength
  have ends : numberLength (tail ++ rest) = tail.length := by
    omega
  rw [← isNumber]
  simp only [Lexeme.number, numberLength_of_blanked blanked ends, ends,
    List.take_left]

/-- A numeral starts with a digit, or with a hyphen and a digit. -/
theorem Numeral.starts
    (isNumeral : Numeral text)
    (isText : text = first :: tail) :
    IsDigit first ∨
      first = '-' ∧ ∃ digit ∈ tail.head?, IsDigit digit := by
  cases isNumeral with
  | @unsigned whole fraction isWhole isFraction =>
      obtain ⟨digit, later, rfl⟩ :=
        List.exists_cons_of_ne_nil isWhole.nonempty
      cases isText
      exact .inl (isWhole.areDigits _ List.mem_cons_self)
  | @negative whole fraction isWhole isFraction =>
      obtain ⟨digit, later, rfl⟩ :=
        List.exists_cons_of_ne_nil isWhole.nonempty
      cases isText
      exact .inr ⟨rfl, digit, rfl, isWhole.areDigits _ List.mem_cons_self⟩

/-! ## All lexemes -/

namespace Lexeme

/-- A word is still cut off as its kind when the text behind it is blanked. -/
theorem cutsOff_word_of_blanked
    (isWord : Word (first :: tail))
    (isToken :
      ofHead first (tail ++ rest) position =
        token kind (first :: tail).length)
    (blanked : Blanked rest blankedRest) :
    CutsOff kind (first :: tail) blankedRest := by
  cases isWord with
  | letters starts continues =>
      rw [ofHead_of_startsWord starts] at isToken
      refine ⟨first, tail, rfl, ?_⟩
      intro position
      rw [ofHead_of_startsWord starts]
      exact word_of_blanked blanked isToken

/-- A number is still cut off as its kind when the text behind it is blanked. -/
theorem cutsOff_number_of_blanked
    (isNumeral : Numeral (first :: tail))
    (isToken :
      ofHead first (tail ++ rest) position =
        token kind (first :: tail).length)
    (blanked : Blanked rest blankedRest) :
    CutsOff kind (first :: tail) blankedRest := by
  refine ⟨first, tail, rfl, ?_⟩
  intro position
  rcases isNumeral.starts rfl with isDigit | ⟨rfl, digit, isHead, isDigit⟩
  · rw [ofHead_of_isDigit isDigit] at isToken ⊢
    exact number_of_blanked blanked isToken
  · obtain ⟨later, rfl⟩ := List.head?_eq_some_iff.mp isHead
    rw [ofHead_hyphen, hyphen_of_isDigit rfl isDigit] at isToken ⊢
    exact number_of_blanked blanked isToken

/-- A spelling is cut off as before where characters behind it are blanked. -/
theorem cutsOff_of_blanked
    (spelled : Spelled kind text)
    (isText : text = first :: tail)
    (isToken : ofHead first (tail ++ rest) position = token kind text.length)
    (blanked : Blanked rest blankedRest) :
    CutsOff kind text blankedRest := by
  cases spelled with
  | keyword word =>
      have isWord := word_text word
      rw [isText] at isWord isToken ⊢
      exact cutsOff_word_of_blanked isWord isToken blanked
  | identifier isWord notReserved =>
      rw [isText] at isWord isToken ⊢
      exact cutsOff_word_of_blanked isWord isToken blanked
  | number isNumeral isValue =>
      rw [isText] at isNumeral isToken ⊢
      exact cutsOff_number_of_blanked isNumeral isToken blanked
  | operator sign =>
      exact cutsOff_operator sign blankedRest
  | mark sign =>
      exact cutsOff_mark sign blankedRest
  | string isQuote isBody =>
      exact cutsOff_string isQuote isBody

end Lexeme

end GraphScript.Token
