import GraphScript.Decimal.Reading
import GraphScript.Fault

namespace GraphScript.Token

/-!
# Words, numbers and strings at the head of a text

Each function cuts one lexeme off the front of a text. Numbers and words are
runs of characters of a class; a string ends at its quote or, with a fault, at
the end of its line.
-/

/-- The characters that separate lexemes. -/
def isBlank
    (character : Char) :
    Bool :=
  character = ' ' || character = '\t' || character = '\r' || character = '\n'

/-- The characters that may start a word. -/
def startsWord
    (character : Char) :
    Bool :=
  character.isAlpha || character = '_'

/-- The characters that may continue a word. -/
def continuesWord
    (character : Char) :
    Bool :=
  character.isAlphanum || character = '_'

/-- The token of a word. -/
def wordKind
    (spelling : String) :
    Kind :=
  match Keyword.ofText? spelling with
  | some word =>
      .keyword word
  | none =>
      .identifier spelling

/-- The fraction at the head of a text: a point counts only before a digit. -/
def fractionLength :
    List Char →
    Nat
  | '.' :: rest =>
      match (rest.takeWhile Char.isDigit).length with
      | 0 => 0
      | count + 1 => count + 2
  | _ =>
      0

/-- The number of characters that continue a number after its first one. -/
def numberLength
    (text : List Char) :
    Nat :=
  let whole := (text.takeWhile Char.isDigit).length
  whole + fractionLength (text.drop whole)

/-- The value of a number's spelling. -/
def numberValue
    (spelling : List Char) :
    Float :=
  (Decimal.ofText? spelling).getD 0

/-- The character that an escape letter stands for. -/
def escaped? :
    Char →
    Option Char
  | '"' => some '"'
  | '\'' => some '\''
  | '\\' => some '\\'
  | 'n' => some '\n'
  | 't' => some '\t'
  | _ => none

/-- What follows the opening quote of a string. -/
structure StringTail where
  /-- The characters of the string's value. -/
  value : List Char
  /-- The number of characters up to the end of the string. -/
  length : Nat
  faults : List FaultReport

namespace StringTail

/-- A string that ends where no quote closes it. -/
def unterminated
    (quote : Char)
    (start here : Position) :
    StringTail :=
  ⟨[], 0, [⟨.unterminatedString quote, .upTo start here⟩]⟩

/-- Put consumed characters and the ones they stand for in front. -/
def after
    (tail : StringTail)
    (consumed : Nat)
    (value : List Char) :
    StringTail :=
  { tail with
    value := value ++ tail.value
    length := consumed + tail.length }

/-- Put a fault in front. -/
def withFault
    (tail : StringTail)
    (report : FaultReport) :
    StringTail :=
  { tail with faults := report :: tail.faults }

end StringTail

/--
Read a string after its opening quote.

A line feed is never part of a string, with or without a backslash before it.
An unknown escape stands for the character itself and is reported under the
backslash and the first byte of that character.
-/
def stringTail
    (quote : Char)
    (start : Position) :
    Position →
    List Char →
    StringTail
  | here, [] =>
      .unterminated quote start here
  | here, '\\' :: [] =>
      (StringTail.unterminated quote start (here.advance '\\')).after 1 []
  | here, '\\' :: letter :: rest =>
      let next := here.advance '\\'
      if letter = '\n' then
        (StringTail.unterminated quote start next).after 1 []
      else
        let tail := stringTail quote start (next.advance letter) rest
        match escaped? letter with
        | some value =>
            tail.after 2 [value]
        | none =>
            let span : Span := .upTo here ⟨here.line, here.column + 2⟩
            (tail.after 2 [letter]).withFault ⟨.invalidEscape letter, span⟩
  | here, character :: rest =>
      if character = quote then
        ⟨[], 1, []⟩
      else if character = '\n' then
        .unterminated quote start here
      else
        (stringTail quote start (here.advance character) rest).after
          1 [character]

end GraphScript.Token
