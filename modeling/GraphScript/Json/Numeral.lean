import GraphScript.Decimal.Reading

namespace GraphScript.Json

/-!
# Numerals of JSON texts

A numeral is kept as it is written. It is a natural number if it has neither a
sign nor a fraction nor a power of ten. Read as a floating-point number, its
digits are collected as far as they fit into 64 bits, and the result is scaled
by powers of ten in floating-point arithmetic; it may differ from the nearest
number in its last bit.
-/

/-- A number as it is written. -/
structure Numeral where
  negative : Bool
  whole : List Char
  fraction : List Char
  /-- The sign and the digits of the power of ten. -/
  power : Option (Bool × List Char)
  deriving DecidableEq, Repr

namespace Numeral

/-- The first number that does not fit into 64 bits. -/
def wordSize : Nat :=
  Nat.pow 2 64

/-- The largest power of ten that one scaling step can apply. -/
def largestScale : Nat := 308

/-- The value of a numeral that is a natural number of 64 bits. -/
def natural?
    (numeral : Numeral) :
    Option Nat :=
  let value := Decimal.digitsValue numeral.whole
  if !numeral.negative && numeral.fraction.isEmpty && numeral.power.isNone &&
      value < wordSize then
    some value
  else
    none

/-- Digits collected into a word, and the power of ten that they lack. -/
structure Collected where
  significand : Nat
  exponent : Int

/-- Collect the digits of a whole part. Those that do not fit are counted. -/
def collectWhole
    (significand : Nat) :
    List Char →
    Collected
  | [] =>
      ⟨significand, 0⟩
  | digit :: rest =>
      let next := 10 * significand + Decimal.digitsValue [digit]
      if next < wordSize then
        collectWhole next rest
      else
        ⟨significand, rest.length + 1⟩

/-- Collect the digits of a fraction. Those that do not fit are dropped. -/
def collectFraction
    (collected : Collected) :
    List Char →
    Collected
  | [] =>
      collected
  | digit :: rest =>
      let next := 10 * collected.significand + Decimal.digitsValue [digit]
      if next < wordSize then
        collectFraction ⟨next, collected.exponent - 1⟩ rest
      else
        collected

/-- A power of ten as a floating-point number. -/
def powerOfTen
    (exponent : Nat) :
    Float :=
  Decimal.nearest false 1 exponent

/-- Scale a number by a power of ten, if the result is finite. -/
def scale?
    (number : Float)
    (exponent : Int) :
    Option Float :=
  let magnitude := exponent.natAbs
  if 0 ≤ exponent then
    if magnitude ≤ largestScale then
      let scaled := number * powerOfTen magnitude
      if scaled.isFinite then some scaled else none
    else if number == 0.0 then
      some number
    else
      none
  else if magnitude ≤ largestScale then
    some (number / powerOfTen magnitude)
  else if magnitude ≤ 2 * largestScale then
    some
      (number / powerOfTen largestScale / powerOfTen (magnitude - largestScale))
  else
    some 0.0

/-- The floating-point number of a numeral, if it is finite. -/
def float?
    (numeral : Numeral) :
    Option Float :=
  let collected :=
    collectFraction (collectWhole 0 numeral.whole) numeral.fraction
  let power : Int :=
    match numeral.power with
    | none => 0
    | some (true, digits) => -(Decimal.digitsValue digits : Int)
    | some (false, digits) => Decimal.digitsValue digits
  let magnitude :=
    scale? (Decimal.nearest false collected.significand 0)
      (collected.exponent + power)
  magnitude.map fun number => if numeral.negative then -number else number

end Numeral

end GraphScript.Json
