import GraphScript.Text.Extending
import GraphScript.Text.Unprintable

namespace GraphScript.Text

/-!
# Quoted text

Strings are shown between double quotes. What would not be seen, or would be
taken for the end of the string, is written as an escape.
-/

/-- A code point in base sixteen between braces. -/
def codePointEscape
    (character : Char) :
    List Char :=
  '\\' :: 'u' :: '{' :: (Nat.toDigits 16 character.toNat ++ ['}'])

/-- The form of one character inside quotes. -/
def quotedCharacter
    (character : Char) :
    List Char :=
  match character with
  | '\x00' => ['\\', '0']
  | '\t' => ['\\', 't']
  | '\r' => ['\\', 'r']
  | '\n' => ['\\', 'n']
  | '\\' => ['\\', '\\']
  | '"' => ['\\', '"']
  | _ =>
      if isExtending character || !isPrintable character then
        codePointEscape character
      else
        [character]

/-- A text between double quotes. -/
def quoted
    (text : String) :
    String :=
  String.ofList ('"' :: (text.toList.flatMap quotedCharacter ++ ['"']))

end GraphScript.Text
