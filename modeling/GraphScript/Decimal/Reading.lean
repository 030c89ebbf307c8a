import GraphScript.Decimal.Binary

namespace GraphScript.Decimal

/-!
# Reading decimal text

A number is read as the nearest one of the 64-bit format.
-/

/-- The value of a run of decimal digits. -/
def digitsValue
    (digits : List Char) :
    Nat :=
  digits.foldl (fun value digit => 10 * value + (digit.toNat - '0'.toNat)) 0

/-- Cut a text after its leading digits. -/
def spanDigits
    (text : List Char) :
    List Char × List Char :=
  text.span Char.isDigit

/-- Split off a sign, which is positive when it is absent. -/
def splitSign :
    List Char →
    Bool × List Char
  | '-' :: rest =>
      (true, rest)
  | '+' :: rest =>
      (false, rest)
  | text =>
      (false, text)

/-- Read digits that reach to the end of the text. -/
def digitsOnly?
    (text : List Char) :
    Option Nat :=
  match spanDigits text with
  | (_ :: _, []) =>
      some (digitsValue text)
  | _ =>
      none

/-- Read the power of ten that may end a number. -/
def exponent? :
    List Char →
    Option Int
  | [] =>
      some 0
  | mark :: rest =>
      if mark = 'e' ∨ mark = 'E' then
        let (negative, digits) := splitSign rest
        (digitsOnly? digits).map fun power =>
          if negative then -(power : Int) else power
      else
        none

/-- Split off a point and the digits after it, both of which may be absent. -/
def splitFraction :
    List Char →
    List Char × List Char
  | '.' :: rest =>
      spanDigits rest
  | text =>
      ([], text)

/-- Read digits with an optional fraction and an optional power of ten. -/
def finite?
    (negative : Bool)
    (text : List Char) :
    Option Float :=
  let (whole, afterWhole) := spanDigits text
  let (fraction, afterFraction) := splitFraction afterWhole
  if whole.isEmpty && fraction.isEmpty then
    none
  else
    (exponent? afterFraction).map fun power =>
      nearest negative (digitsValue (whole ++ fraction))
        (power - fraction.length)

/-- Read a decimal number or the name of a special one, in any case. -/
def ofText?
    (text : List Char) :
    Option Float :=
  let (negative, unsigned) := splitSign text
  let word := String.ofList (unsigned.map Char.toLower)
  if word = "inf" ∨ word = "infinity" then
    some (ofSignAndBits negative Binary.infinityBits)
  else if word = "nan" then
    some (0.0 / 0.0)
  else
    finite? negative unsigned

end GraphScript.Decimal
