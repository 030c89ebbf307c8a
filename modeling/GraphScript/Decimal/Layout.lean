import GraphScript.Decimal.Shortest

namespace GraphScript.Decimal

/-!
# Layouts of decimal text

The digits of a number are chosen by `Binary.shortest`. A layout decides how
they are written: with or without an exponent, and with or without a point.
-/

/-- How the digits of a number are written down. -/
structure Layout where
  /-- The choice between two equally near shortest decimals. -/
  tie : TieRule
  /-- Whether a whole number is written with a point and a zero. -/
  keepsPoint : Bool
  /-- Whether a number below the given power of ten avoids an exponent. -/
  isPositional : Int → Bool

namespace Layout

/-- The digits of a whole number in base ten. -/
def digits
    (number : Nat) :
    List Char :=
  Nat.toDigits 10 number

/-- Zeros in a row. -/
def zeros
    (count : Int) :
    List Char :=
  List.replicate count.toNat '0'

/-- The digits with a point at its place and zeros where digits are missing. -/
def positional
    (layout : Layout)
    (written : List Char)
    (exponent : Int) :
    List Char :=
  let magnitude := written.length + exponent
  if 0 ≤ exponent then
    written ++ zeros exponent ++ (if layout.keepsPoint then ['.', '0'] else [])
  else if 0 < magnitude then
    written.take magnitude.toNat ++ '.' :: written.drop magnitude.toNat
  else
    '0' :: '.' :: (zeros (-magnitude) ++ written)

/-- One digit, a point if more digits follow, and the power of ten. -/
def exponential
    (written : List Char)
    (exponent : Int) :
    List Char :=
  let power := written.length + exponent - 1
  let fraction :=
    match written.drop 1 with
    | [] => []
    | rest => '.' :: rest
  let sign := if power < 0 then '-' else '+'
  written.take 1 ++ fraction ++ 'e' :: sign :: digits power.natAbs

/-- The text of a positive decimal. -/
def scientific
    (layout : Layout)
    (value : Scientific) :
    List Char :=
  let written := digits value.significand
  if layout.isPositional (written.length + value.exponent) then
    layout.positional written value.exponent
  else
    exponential written value.exponent

/-- The text of a finite magnitude. -/
def magnitude
    (layout : Layout)
    (value : Binary) :
    List Char :=
  if value.mantissa = 0 then
    '0' :: (if layout.keepsPoint then ['.', '0'] else [])
  else
    layout.scientific (value.shortest layout.tie)

/-- The text of a finite number, and none for any other. -/
def text?
    (layout : Layout)
    (number : Float) :
    Option String :=
  (Binary.ofFloat? number).map fun value =>
    let unsigned := layout.magnitude value
    String.ofList (if isNegative number then '-' :: unsigned else unsigned)

end Layout

/-- Plain decimals have no exponent, and whole numbers have no point. -/
def plainLayout : Layout :=
  { tie := .up
    keepsPoint := false
    isPositional := fun _ => true }

/-- The plain text of any number. -/
def plainText
    (number : Float) :
    String :=
  match plainLayout.text? number with
  | some text =>
      text
  | none =>
      if number.isNaN then
        "NaN"
      else if isNegative number then
        "-inf"
      else
        "inf"

end GraphScript.Decimal
