import Mathlib.Algebra.Order.Ring.Nat
import Mathlib.Data.Nat.Log
import Mathlib.Tactic.Ring

namespace GraphScript.Rounding

/-!
# Rounding to the nearest number with few bits

A number is rounded to 53 bits by dropping the bits below them. What is dropped
decides between the two neighbours, and of two equally near ones the even one is
taken. Rounding keeps the order of numbers, and it keeps the numbers whose bits
are few enough.
-/

/-- The number of bits that a significand has. -/
def precision : Nat := 53

/-- Divide by a power of two, rounding to the nearest and then to the even one. -/
def dropBits
    (shift number : Nat) :
    Nat :=
  let quotient := number / 2 ^ shift
  let rest := number % 2 ^ shift
  if 2 * rest < 2 ^ shift then
    quotient
  else if 2 * rest = 2 ^ shift then
    quotient + quotient % 2
  else
    quotient + 1

/-- Dropping bits rounds down at most to the quotient. -/
theorem le_dropBits
    (shift number : Nat) :
    number / 2 ^ shift ≤ dropBits shift number := by
  unfold dropBits
  grind

/-- Dropping bits rounds up by at most one. -/
theorem dropBits_le
    (shift number : Nat) :
    dropBits shift number ≤ number / 2 ^ shift + 1 := by
  unfold dropBits
  grind

/-- Bits that are all zero are dropped without rounding. -/
theorem dropBits_of_mod_eq_zero
    {shift number : Nat}
    (noRest : number % 2 ^ shift = 0) :
    dropBits shift number = number / 2 ^ shift := by
  have positive : 0 < 2 ^ shift := Nat.two_pow_pos shift
  simp [dropBits, noRest, positive]

/-- Dropping no bits changes nothing. -/
@[simp] theorem dropBits_zero
    (number : Nat) :
    dropBits 0 number = number := by
  rw [dropBits_of_mod_eq_zero (by simp [Nat.mod_one])]
  simp

/-- Dropping bits keeps the order of numbers. -/
theorem dropBits_mono
    (shift : Nat)
    {lesser greater : Nat}
    (ordered : lesser ≤ greater) :
    dropBits shift lesser ≤ dropBits shift greater := by
  have quotients : lesser / 2 ^ shift ≤ greater / 2 ^ shift :=
    Nat.div_le_div_right ordered
  rcases Nat.lt_or_eq_of_le quotients with less | same
  · calc
      dropBits shift lesser ≤ lesser / 2 ^ shift + 1 := dropBits_le _ _
      _ ≤ greater / 2 ^ shift := less
      _ ≤ dropBits shift greater := le_dropBits _ _
  · have rests : lesser % 2 ^ shift ≤ greater % 2 ^ shift := by
      have lesserSplit := Nat.div_add_mod lesser (2 ^ shift)
      have greaterSplit := Nat.div_add_mod greater (2 ^ shift)
      rw [same] at lesserSplit
      omega
    unfold dropBits
    rw [same]
    grind

/-- A common factor of two may be taken out before bits are dropped. -/
theorem dropBits_mul
    (shift factor number : Nat) :
    dropBits (shift + factor) (number * 2 ^ factor) = dropBits shift number := by
  have positive : 0 < 2 ^ factor := Nat.two_pow_pos factor
  have quotient :
      number * 2 ^ factor / 2 ^ (shift + factor) = number / 2 ^ shift := by
    rw [Nat.pow_add, Nat.mul_div_mul_right _ _ positive]
  have rest :
      number * 2 ^ factor % 2 ^ (shift + factor) =
        number % 2 ^ shift * 2 ^ factor := by
    rw [Nat.pow_add, Nat.mul_mod_mul_right]
  have below :
      2 * (number % 2 ^ shift * 2 ^ factor) < 2 ^ (shift + factor) ↔
        2 * (number % 2 ^ shift) < 2 ^ shift := by
    rw [Nat.pow_add, ← Nat.mul_assoc, Nat.mul_lt_mul_right positive]
  have half :
      2 * (number % 2 ^ shift * 2 ^ factor) = 2 ^ (shift + factor) ↔
        2 * (number % 2 ^ shift) = 2 ^ shift := by
    rw [Nat.pow_add, ← Nat.mul_assoc, Nat.mul_left_inj positive.ne']
  unfold dropBits
  simp only [quotient, rest, below, half]

/-! ## Rounding to the precision -/

/-- The number of bits that a number has beyond the precision. -/
def excess
    (number : Nat) :
    Nat :=
  number.log2 + 1 - precision

/-- The nearest number whose bits beyond the precision are zero. -/
def rounded
    (number : Nat) :
    Nat :=
  dropBits (excess number) number * 2 ^ excess number

/-- A greater number has at least as many bits beyond the precision. -/
theorem excess_mono
    {lesser greater : Nat}
    (ordered : lesser ≤ greater) :
    excess lesser ≤ excess greater := by
  have logs : lesser.log2 ≤ greater.log2 := by
    rw [Nat.log2_eq_log_two, Nat.log2_eq_log_two]
    exact Nat.log_mono_right ordered
  unfold excess
  omega

/-- The precision and the excess bound a number from above. -/
theorem lt_two_pow_excess
    (number : Nat) :
    number < 2 ^ (precision + excess number) := by
  have bound : number < 2 ^ (number.log2 + 1) := Nat.lt_log2_self
  apply bound.trans_le
  apply Nat.pow_le_pow_right (by decide)
  unfold excess
  omega

/-- A number with an excess has its first bit in front of both. -/
theorem two_pow_excess_le
    {number : Nat}
    (exceeds : 0 < excess number) :
    2 ^ (precision - 1 + excess number) ≤ number := by
  have nonzero : number ≠ 0 := by
    rintro rfl
    simp [excess, precision] at exceeds
  have bound := Nat.log2_self_le nonzero
  have exponent : precision - 1 + excess number = number.log2 := by
    unfold excess precision at *
    omega
  rwa [exponent]

/-- Without the excess a number fits the precision, or just exceeds it. -/
theorem dropBits_excess_le
    (number : Nat) :
    dropBits (excess number) number ≤ 2 ^ precision := by
  apply (dropBits_le _ _).trans
  rw [Nat.succ_le_iff, Nat.div_lt_iff_lt_mul (Nat.two_pow_pos _), ← Nat.pow_add]
  exact lt_two_pow_excess number

/-- Without the excess a number still uses the full precision. -/
theorem le_dropBits_excess
    {number : Nat}
    (exceeds : 0 < excess number) :
    2 ^ (precision - 1) ≤ dropBits (excess number) number := by
  apply le_trans _ (le_dropBits _ _)
  rw [Nat.le_div_iff_mul_le (Nat.two_pow_pos _), ← Nat.pow_add]
  exact two_pow_excess_le exceeds

/-- Rounding keeps the order of numbers. -/
theorem rounded_mono
    {lesser greater : Nat}
    (ordered : lesser ≤ greater) :
    rounded lesser ≤ rounded greater := by
  rcases Nat.lt_or_eq_of_le (excess_mono ordered) with fewer | same
  · -- With fewer bits to drop, a power of two lies between the two numbers.
    have below : rounded lesser ≤ 2 ^ (precision + excess lesser) := by
      rw [rounded, Nat.pow_add]
      exact Nat.mul_le_mul_right _ (dropBits_excess_le lesser)
    have above : 2 ^ (precision - 1 + excess greater) ≤ rounded greater := by
      rw [rounded, Nat.pow_add]
      exact Nat.mul_le_mul_right _ (le_dropBits_excess (by omega))
    have between :
        2 ^ (precision + excess lesser) ≤ 2 ^ (precision - 1 + excess greater) := by
      apply Nat.pow_le_pow_right (by decide)
      unfold precision
      omega
    exact below.trans (between.trans above)
  · rw [rounded, rounded, same]
    exact Nat.mul_le_mul_right _ (dropBits_mono _ ordered)

/-- A number with few enough bits stays as it is. -/
theorem rounded_mul_two_pow
    {significand : Nat}
    (fits : significand < 2 ^ precision)
    (shift : Nat) :
    rounded (significand * 2 ^ shift) = significand * 2 ^ shift := by
  have few : excess (significand * 2 ^ shift) ≤ shift := by
    rcases Nat.eq_zero_or_pos significand with rfl | positive
    · simp [excess, precision]
    · have log : (significand * 2 ^ shift).log2 < precision + shift := by
        rw [Nat.log2_lt (Nat.mul_ne_zero positive.ne' (Nat.two_pow_pos _).ne'),
          Nat.pow_add]
        exact (Nat.mul_lt_mul_right (Nat.two_pow_pos shift)).mpr fits
      unfold excess
      omega
  have divides : 2 ^ excess (significand * 2 ^ shift) ∣ significand * 2 ^ shift :=
    (Nat.pow_dvd_pow 2 few).mul_left significand
  rw [rounded, dropBits_of_mod_eq_zero (Nat.mod_eq_zero_of_dvd divides),
    Nat.div_mul_cancel divides]

end GraphScript.Rounding
