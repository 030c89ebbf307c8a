import GraphScript.Decimal.Layout

namespace GraphScript

/-!
# JSON values and their text

Values are written without blanks and with the members of an object in the
order in which the value lists them. A number that is not finite has no JSON
form and is written as null.
-/

/-- A JSON value. -/
inductive Json where
  | null
  | bool (value : Bool)
  | count (value : Nat)
  | real (value : Float)
  | string (contents : String)
  | array (items : List Json)
  | object (members : List (String × Json))
  deriving Repr, Inhabited

namespace Json

/-- An exponent is written for numbers below `1e-5` and from `1e16` on. -/
def numberLayout : Decimal.Layout :=
  { tie := .toEven
    keepsPoint := true
    isPositional := fun magnitude =>
      -4 ≤ magnitude && magnitude ≤ 16 }

/-- The two lower-case digits of a byte in base sixteen. -/
def hexByte
    (value : Nat) :
    List Char :=
  [Nat.digitChar (value / 16 % 16), Nat.digitChar (value % 16)]

/-- The form of one character in a JSON string. -/
def escapedCharacter
    (character : Char) :
    List Char :=
  match character with
  | '"' => ['\\', '"']
  | '\\' => ['\\', '\\']
  | '\x08' => ['\\', 'b']
  | '\x0c' => ['\\', 'f']
  | '\n' => ['\\', 'n']
  | '\r' => ['\\', 'r']
  | '\t' => ['\\', 't']
  | _ =>
      if character.toNat < 0x20 then
        '\\' :: 'u' :: '0' :: '0' :: hexByte character.toNat
      else
        [character]

/-- A string between quotes. -/
def stringText
    (contents : String) :
    String :=
  String.ofList ('"' :: (contents.toList.flatMap escapedCharacter ++ ['"']))

mutual

/-- The text of a value. -/
def text :
    Json →
    String
  | .null => "null"
  | .bool true => "true"
  | .bool false => "false"
  | .count value => toString value
  | .real value => (numberLayout.text? value).getD "null"
  | .string contents => stringText contents
  | .array items => "[" ++ ",".intercalate (itemTexts items) ++ "]"
  | .object members => "\x7b" ++ ",".intercalate (memberTexts members) ++ "\x7d"

/-- The texts of the items of an array. -/
def itemTexts :
    List Json →
    List String
  | [] => []
  | item :: rest => item.text :: itemTexts rest

/-- The texts of the members of an object. -/
def memberTexts :
    List (String × Json) →
    List String
  | [] => []
  | (key, value) :: rest =>
      (stringText key ++ ":" ++ value.text) :: memberTexts rest

end

/-- Members in ascending order of their keys. -/
def sortMembers
    (members : List (String × Json)) :
    List (String × Json) :=
  members.mergeSort fun left right => !decide (right.1 < left.1)

mutual

/-- The same value with the members of every object sorted by their keys. -/
def sorted :
    Json →
    Json
  | .array items => .array (sortedItems items)
  | .object members => .object (sortMembers (sortedMembers members))
  | scalar => scalar

/-- The items of an array, each one sorted. -/
def sortedItems :
    List Json →
    List Json
  | [] => []
  | item :: rest => item.sorted :: sortedItems rest

/-- The members of an object in place, each value sorted. -/
def sortedMembers :
    List (String × Json) →
    List (String × Json)
  | [] => []
  | (key, value) :: rest => (key, value.sorted) :: sortedMembers rest

end

/-- The value of an optional part, which is null when it is absent. -/
def ofOption
    (value : Option Json) :
    Json :=
  value.getD .null

/-- The array of the texts of a list. -/
def strings
    (contents : List String) :
    Json :=
  .array (contents.map .string)

end Json

end GraphScript
