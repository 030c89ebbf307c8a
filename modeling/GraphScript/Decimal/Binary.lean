namespace GraphScript.Decimal

/-!
# Floating-point numbers as exact fractions

A finite number of the 64-bit format is a whole number of units of `2 ^ -1074`.
This module takes such numbers apart and finds the one that is nearest to a
fraction, all in arithmetic on natural numbers.
-/

/-- The magnitude `mantissa * 2 ^ exponent`, counted in units of `2 ^ -1074`. -/
structure Binary where
  mantissa : Nat
  exponent : Nat
  deriving DecidableEq, Repr

namespace Binary

/-- The number of units in one. -/
def unitsPerOne : Nat :=
  Nat.pow 2 1074

/-- The least mantissa that uses every bit of the format. -/
def fullMantissa : Nat :=
  Nat.pow 2 52

/-- The encoding of infinity: the first one past all finite magnitudes. -/
def infinityBits : Nat :=
  2047 * fullMantissa

/-- The sign bit of an encoding. -/
def signBit : Nat :=
  Nat.pow 2 63

/-- The magnitude with the given encoding, unless it is not finite. -/
def ofBits?
    (bits : Nat) :
    Option Binary :=
  let magnitude := bits % signBit
  let field := magnitude / fullMantissa
  let fraction := magnitude % fullMantissa
  if infinityBits ≤ magnitude then
    none
  else if field = 0 then
    some ⟨fraction, 0⟩
  else
    some ⟨fraction + fullMantissa, field - 1⟩

/-- The magnitude of a finite number. -/
def ofFloat?
    (number : Float) :
    Option Binary :=
  ofBits? number.toBits.toNat

/-- The number of units of `2 ^ -1074`. -/
def units
    (magnitude : Binary) :
    Nat :=
  magnitude.mantissa * Nat.pow 2 magnitude.exponent

/--
The encoding of a magnitude.

A mantissa that is full, or one past full, carries into the exponent field.
-/
def bits
    (magnitude : Binary) :
    Nat :=
  magnitude.exponent * fullMantissa + magnitude.mantissa

end Binary

/-- The sign of a number, which zero has as well. -/
def isNegative
    (number : Float) :
    Bool :=
  Binary.signBit ≤ number.toBits.toNat

/-- A quotient rounded to the nearest natural number, a half to the even one. -/
def roundQuotient
    (numerator denominator : Nat) :
    Nat :=
  let quotient := numerator / denominator
  let twice := 2 * (numerator % denominator)
  if twice < denominator then
    quotient
  else if denominator < twice then
    quotient + 1
  else
    quotient + quotient % 2

/-- The finite magnitude or infinity that is nearest to a fraction. -/
def nearestBits
    (numerator denominator : Nat) :
    Nat :=
  let scaled := numerator * Binary.unitsPerOne
  let exponent := (scaled / denominator).log2 - 52
  let rounded : Binary :=
    ⟨roundQuotient scaled (denominator * Nat.pow 2 exponent), exponent⟩
  min rounded.bits Binary.infinityBits

/-- The number with the given sign and the given encoding of its magnitude. -/
def ofSignAndBits
    (negative : Bool)
    (magnitude : Nat) :
    Float :=
  Float.ofBits
    (UInt64.ofNat (if negative then Binary.signBit + magnitude else magnitude))

/--
The number nearest to `significand * 10 ^ exponent`.

Powers far outside the format's range are not computed: such a value is
infinity or zero.
-/
def nearest
    (negative : Bool)
    (significand : Nat)
    (exponent : Int) :
    Float :=
  let digits : Int := (Nat.repr significand).length
  if significand = 0 ∨ exponent + digits < -400 then
    ofSignAndBits negative 0
  else if 400 < exponent then
    ofSignAndBits negative Binary.infinityBits
  else
    ofSignAndBits negative
      (nearestBits
        (significand * Nat.pow 10 exponent.toNat)
        (Nat.pow 10 (-exponent).toNat))

end GraphScript.Decimal
