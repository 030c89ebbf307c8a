import GraphScript.Decimal.Binary

namespace GraphScript.Decimal

/-!
# The shortest decimal that reads back

Among the decimals that round to a given number, the ones with the fewest
digits are found by trying coarser grids of powers of ten before finer ones.
On one grid only the two neighbours of the number can round to it.
-/

/-- The value `significand * 10 ^ exponent`. -/
structure Scientific where
  significand : Nat
  exponent : Int
  deriving DecidableEq, Repr

/-- Which neighbour stands for a number halfway between two decimals. -/
inductive TieRule where
  | toEven
  | up
  deriving DecidableEq, Repr

namespace TieRule

/-- The chosen one of a whole number and its successor. -/
def choose
    (rule : TieRule)
    (lower : Nat) :
    Nat :=
  match rule with
  | .toEven =>
      lower + lower % 2
  | .up =>
      lower + 1

end TieRule

namespace Binary

/-- Four times the units of a magnitude, so that half steps are whole. -/
def quarters
    (magnitude : Binary) :
    Nat :=
  4 * magnitude.units

/-- Half the distance to the next smaller magnitude, in quarter units. -/
def gapBelow
    (magnitude : Binary) :
    Nat :=
  if magnitude.mantissa = fullMantissa ∧ 0 < magnitude.exponent then
    Nat.pow 2 magnitude.exponent
  else
    2 * Nat.pow 2 magnitude.exponent

/-- Half the distance to the next larger magnitude, in quarter units. -/
def gapAbove
    (magnitude : Binary) :
    Nat :=
  2 * Nat.pow 2 magnitude.exponent

/-- Whether a distance stays within a gap. The end belongs to an even mantissa. -/
def reaches
    (magnitude : Binary)
    (distance gap : Nat) :
    Bool :=
  distance < gap || (distance = gap && magnitude.mantissa % 2 = 0)

/-- The multiple of `10 ^ exponent` that rounds to the magnitude, if one does. -/
def gridPoint?
    (magnitude : Binary)
    (rule : TieRule)
    (exponent : Int) :
    Option Nat :=
  let finer := Nat.pow 10 (-exponent).toNat
  let value := magnitude.quarters * finer
  let step := 4 * unitsPerOne * Nat.pow 10 exponent.toNat
  let lower := value / step
  let below := value % step
  let above := step - below
  let lowerReads := magnitude.reaches below (magnitude.gapBelow * finer)
  let upperReads := magnitude.reaches above (magnitude.gapAbove * finer)
  match lowerReads, upperReads with
  | true, true =>
      if below < above then
        some lower
      else if above < below then
        some (lower + 1)
      else
        some (rule.choose lower)
  | true, false =>
      some lower
  | false, true =>
      some (lower + 1)
  | false, false =>
      none

/-- Try the given grid and the finer ones after it. -/
def shortestFrom
    (magnitude : Binary)
    (rule : TieRule)
    (exponent : Int) :
    Nat →
    Scientific
  | 0 =>
      ⟨(magnitude.gridPoint? rule exponent).getD 0, exponent⟩
  | finer + 1 =>
      match magnitude.gridPoint? rule exponent with
      | some significand =>
          ⟨significand, exponent⟩
      | none =>
          magnitude.shortestFrom rule (exponent - 1) finer

/-- The least power of ten that is larger than a positive magnitude. -/
def decimalMagnitude
    (magnitude : Binary) :
    Int :=
  let units := magnitude.units
  if unitsPerOne ≤ units then
    (Nat.repr (units / unitsPerOne)).length
  else
    1 - (Nat.repr ((unitsPerOne - 1) / units)).length

/-- The shortest decimal that reads back as a positive magnitude. -/
def shortest
    (magnitude : Binary)
    (rule : TieRule) :
    Scientific :=
  magnitude.shortestFrom rule magnitude.decimalMagnitude 17

end Binary

end GraphScript.Decimal
