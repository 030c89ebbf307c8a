import GraphScript.Json.Numeral

namespace GraphScript.Json

/-!
# JSON texts as documents

A document holds what a JSON text says with its numerals as written and with
repeated members. A string with half of a surrogate pair has no contents, which
matters only where the string is used.
-/

/-- What a JSON text says. -/
inductive Document where
  | null
  | bool (value : Bool)
  | number (numeral : Numeral)
  | string (contents : Option String)
  | array (items : List Document)
  | object (members : List (Option String × Document))
  deriving Repr, Inhabited

namespace Document

/-- Drop the blanks at the head of a text. -/
def skipBlanks
    (text : List Char) :
    List Char :=
  text.dropWhile fun character =>
    character = ' ' || character = '\n' || character = '\t' ||
      character = '\r'

/-- The value of a hexadecimal digit. -/
def hexDigit?
    (character : Char) :
    Option Nat :=
  if character.isDigit then
    some (character.toNat - '0'.toNat)
  else if 'a' ≤ character ∧ character ≤ 'f' then
    some (character.toNat - 'a'.toNat + 10)
  else if 'A' ≤ character ∧ character ≤ 'F' then
    some (character.toNat - 'A'.toNat + 10)
  else
    none

/-- The value of four hexadecimal digits. -/
def hexUnit?
    (first second third fourth : Char) :
    Option Nat := do
  return 4096 * (← hexDigit? first) + 256 * (← hexDigit? second) +
    16 * (← hexDigit? third) + (← hexDigit? fourth)

/-- The character that a one-letter escape stands for. -/
def escapedUnit?
    (letter : Char) :
    Option Nat :=
  match letter with
  | '"' => some '"'.toNat
  | '\\' => some '\\'.toNat
  | '/' => some '/'.toNat
  | 'b' => some 0x08
  | 'f' => some 0x0c
  | 'n' => some 0x0a
  | 'r' => some 0x0d
  | 't' => some 0x09
  | _ => none

/-- Read the code units of a string through its closing quote. -/
def stringUnits :
    List Char →
    Option (List Nat × List Char)
  | [] =>
      none
  | '"' :: rest =>
      some ([], rest)
  | '\\' :: 'u' :: first :: second :: third :: fourth :: rest => do
      let unit ← hexUnit? first second third fourth
      let (units, after) ← stringUnits rest
      return (unit :: units, after)
  | '\\' :: letter :: rest => do
      let unit ← escapedUnit? letter
      let (units, after) ← stringUnits rest
      return (unit :: units, after)
  | character :: rest =>
      if character.toNat < 0x20 then
        none
      else do
        let (units, after) ← stringUnits rest
        return (character.toNat :: units, after)

/-- Whether a code unit is the first half of a pair. -/
def isHighSurrogate
    (unit : Nat) :
    Bool :=
  0xD800 ≤ unit && unit ≤ 0xDBFF

/-- Whether a code unit is the second half of a pair. -/
def isLowSurrogate
    (unit : Nat) :
    Bool :=
  0xDC00 ≤ unit && unit ≤ 0xDFFF

/-- The characters of code units, unless half of a pair stands alone. -/
def joinUnits? :
    List Nat →
    Option (List Char)
  | [] =>
      some []
  | high :: low :: rest =>
      if isHighSurrogate high then
        if isLowSurrogate low then
          let code := 0x10000 + (high - 0xD800) * 0x400 + (low - 0xDC00)
          (joinUnits? rest).map (Char.ofNat code :: ·)
        else
          none
      else if isLowSurrogate high then
        none
      else
        (joinUnits? (low :: rest)).map (Char.ofNat high :: ·)
  | [unit] =>
      if isHighSurrogate unit || isLowSurrogate unit then
        none
      else
        some [Char.ofNat unit]

/-- Read a string after its opening quote. -/
def readString
    (text : List Char) :
    Option (Option String × List Char) := do
  let (units, rest) ← stringUnits text
  return ((joinUnits? units).map String.ofList, rest)

/-- Read at least one digit. -/
def readDigits
    (text : List Char) :
    Option (List Char × List Char) :=
  match Decimal.spanDigits text with
  | ([], _) => none
  | (digits, rest) => some (digits, rest)

/-- Read a whole part, which starts with a zero only if it is zero. -/
def readWhole
    (text : List Char) :
    Option (List Char × List Char) := do
  let (digits, rest) ← readDigits text
  match digits with
  | '0' :: _ :: _ => none
  | _ => return (digits, rest)

/-- Read a point and the digits after it, if a point comes next. -/
def readFraction :
    List Char →
    Option (List Char × List Char)
  | '.' :: rest =>
      readDigits rest
  | text =>
      some ([], text)

/-- Read a power of ten, if one comes next. -/
def readPower :
    List Char →
    Option (Option (Bool × List Char) × List Char)
  | [] =>
      some (none, [])
  | mark :: rest =>
      if mark = 'e' ∨ mark = 'E' then do
        let (negative, unsigned) := Decimal.splitSign rest
        let (digits, after) ← readDigits unsigned
        return (some (negative, digits), after)
      else
        some (none, mark :: rest)

/-- Read a number. -/
def readNumeral
    (text : List Char) :
    Option (Numeral × List Char) := do
  let (negative, unsigned) :=
    match text with
    | '-' :: rest => (true, rest)
    | _ => (false, text)
  let (whole, afterWhole) ← readWhole unsigned
  let (fraction, afterFraction) ← readFraction afterWhole
  let (power, rest) ← readPower afterFraction
  return (⟨negative, whole, fraction, power⟩, rest)

mutual

/-- Read a value. The number bounds the calls, of which each needs a character. -/
def readValue :
    Nat →
    List Char →
    Option (Document × List Char)
  | 0, _ =>
      none
  | bound + 1, text =>
      match skipBlanks text with
      | 'n' :: 'u' :: 'l' :: 'l' :: rest =>
          some (.null, rest)
      | 't' :: 'r' :: 'u' :: 'e' :: rest =>
          some (.bool true, rest)
      | 'f' :: 'a' :: 'l' :: 's' :: 'e' :: rest =>
          some (.bool false, rest)
      | '"' :: rest => do
          let (contents, after) ← readString rest
          return (.string contents, after)
      | '[' :: rest =>
          match skipBlanks rest with
          | ']' :: after =>
              some (.array [], after)
          | _ => do
              let (items, after) ← readItems bound rest
              return (.array items, after)
      | '{' :: rest =>
          match skipBlanks rest with
          | '}' :: after =>
              some (.object [], after)
          | _ => do
              let (members, after) ← readMembers bound rest
              return (.object members, after)
      | other => do
          let (numeral, after) ← readNumeral other
          return (.number numeral, after)

/-- Read the items of an array through its closing bracket. -/
def readItems :
    Nat →
    List Char →
    Option (List Document × List Char)
  | 0, _ =>
      none
  | bound + 1, text => do
      let (item, after) ← readValue bound text
      match skipBlanks after with
      | ',' :: rest =>
          let (items, last) ← readItems bound rest
          return (item :: items, last)
      | ']' :: rest =>
          return ([item], rest)
      | _ =>
          none

/-- Read the members of an object through its closing brace. -/
def readMembers :
    Nat →
    List Char →
    Option (List (Option String × Document) × List Char)
  | 0, _ =>
      none
  | bound + 1, text =>
      match skipBlanks text with
      | '"' :: rest => do
          let (key, afterKey) ← readString rest
          match skipBlanks afterKey with
          | ':' :: afterColon =>
              let (value, after) ← readValue bound afterColon
              match skipBlanks after with
              | ',' :: later =>
                  let (members, last) ← readMembers bound later
                  return ((key, value) :: members, last)
              | '}' :: later =>
                  return ([(key, value)], later)
              | _ =>
                  none
          | _ =>
              none
      | _ =>
          none

end

/-- Read a text that holds one value and nothing else. -/
def ofText?
    (text : String) :
    Option Document := do
  let characters := text.toList
  let (document, rest) ← readValue (2 * characters.length + 2) characters
  if (skipBlanks rest).isEmpty then
    return document
  else
    none

end Document

end GraphScript.Json
