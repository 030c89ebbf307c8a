import GraphScript.Proofs.Rounding.NearestEven
import Mathlib

namespace GraphScript.Rounding

open Float.Model Float.Model.UnpackedFloat

/-!
# Unpacked floating-point numbers

A finite floating-point number counts units of two to the power of -1074, the
least positive one. Its significand and exponent are canonical: the significand
uses the full precision unless the exponent is the least one. Canonical numbers
are ordered by their exponents first, and each has one packed form.
-/

/-- The exponent of one unit. -/
def unitExponent : Int := -1074

/-- The greatest exponent of a finite number. -/
def greatestExponent : Int := 971

/-- The exponent of two of the number of units that is not finite any more. -/
def overflowExponent : Nat := 2098

/-- The number of units at which numbers are no longer finite. -/
def overflow : Nat := 2 ^ overflowExponent

/-- The number of units that a significand has with an exponent. -/
def unitsOf
    (significand : Nat)
    (exponent : Int) :
    Nat :=
  significand * 2 ^ (exponent - unitExponent).toNat

/-- A significand and an exponent are as the format has them. -/
structure Canonical
    (significand : Nat)
    (exponent : Int) :
    Prop where
  positive : 0 < significand
  fits : significand < 2 ^ 53
  leastExponent : unitExponent ≤ exponent
  full : 2 ^ 52 ≤ significand ∨ exponent = unitExponent

namespace Canonical

variable
  {significand otherSignificand : Nat}
  {exponent otherExponent : Int}

/-- A canonical number counts at least one unit. -/
theorem units_pos
    (canonical : Canonical significand exponent) :
    0 < unitsOf significand exponent :=
  Nat.mul_pos canonical.positive (Nat.two_pow_pos _)

/-- A canonical number is not changed by rounding. -/
theorem rounded_units
    (canonical : Canonical significand exponent) :
    rounded (unitsOf significand exponent) = unitsOf significand exponent :=
  rounded_mul_two_pow canonical.fits _

/-- The exponent of a canonical number bounds its units. -/
theorem units_lt_two_pow
    (canonical : Canonical significand exponent) :
    unitsOf significand exponent <
      2 ^ (53 + (exponent - unitExponent).toNat) := by
  rw [unitsOf, Nat.pow_add]
  exact (Nat.mul_lt_mul_right (Nat.two_pow_pos _)).mpr canonical.fits

/--
A canonical number uses its full precision unless its exponent is the least one.
-/
theorem two_pow_le_units
    (canonical : Canonical significand exponent)
    (notLeast : unitExponent < exponent) :
    2 ^ (52 + (exponent - unitExponent).toNat) ≤ unitsOf significand exponent := by
  rw [unitsOf, Nat.pow_add]
  apply Nat.mul_le_mul_right
  exact canonical.full.resolve_right (by omega)

/-- Of two canonical numbers the one with the greater exponent is greater. -/
theorem units_lt_of_exponent_lt
    (canonical : Canonical significand exponent)
    (otherCanonical : Canonical otherSignificand otherExponent)
    (less : exponent < otherExponent) :
    unitsOf significand exponent < unitsOf otherSignificand otherExponent := by
  have least := canonical.leastExponent
  apply canonical.units_lt_two_pow.trans_le
  apply le_trans _ (otherCanonical.two_pow_le_units (by omega))
  apply Nat.pow_le_pow_right (by decide)
  omega

/-- Canonical numbers are compared by their exponents, then significands. -/
theorem compare_units
    (canonical : Canonical significand exponent)
    (otherCanonical : Canonical otherSignificand otherExponent) :
    compare (unitsOf significand exponent)
        (unitsOf otherSignificand otherExponent) =
      (compare exponent otherExponent).then
        (compare significand otherSignificand) := by
  rcases lt_trichotomy exponent otherExponent with less | rfl | greater
  · have units := canonical.units_lt_of_exponent_lt otherCanonical less
    rw [compare_lt_iff_lt.mpr units, compare_lt_iff_lt.mpr less]
    rfl
  · rw [compare_eq_iff_eq.mpr rfl]
    unfold unitsOf
    have positive : 0 < 2 ^ (exponent - unitExponent).toNat := Nat.two_pow_pos _
    rcases lt_trichotomy significand otherSignificand with less | rfl | greater
    · rw [compare_lt_iff_lt.mpr less,
        compare_lt_iff_lt.mpr ((Nat.mul_lt_mul_right positive).mpr less)]
      rfl
    · rw [compare_eq_iff_eq.mpr rfl, compare_eq_iff_eq.mpr rfl]
      rfl
    · rw [compare_gt_iff_gt.mpr greater,
        compare_gt_iff_gt.mpr ((Nat.mul_lt_mul_right positive).mpr greater)]
      rfl
  · have units := otherCanonical.units_lt_of_exponent_lt canonical greater
    rw [compare_gt_iff_gt.mpr units, compare_gt_iff_gt.mpr greater]
    rfl

/-- The units of a canonical number determine its significand and its exponent. -/
theorem eq_of_units_eq
    (canonical : Canonical significand exponent)
    (otherCanonical : Canonical otherSignificand otherExponent)
    (same :
      unitsOf significand exponent = unitsOf otherSignificand otherExponent) :
    significand = otherSignificand ∧ exponent = otherExponent := by
  rcases lt_trichotomy exponent otherExponent with less | rfl | greater
  · have units := canonical.units_lt_of_exponent_lt otherCanonical less
    omega
  · exact ⟨Nat.eq_of_mul_eq_mul_right (Nat.two_pow_pos _) same, rfl⟩
  · have units := otherCanonical.units_lt_of_exponent_lt canonical greater
    omega

/-- A canonical number is finite exactly if its exponent is not too great. -/
theorem units_lt_overflow_iff
    (canonical : Canonical significand exponent) :
    unitsOf significand exponent < overflow ↔ exponent ≤ greatestExponent := by
  unfold overflow
  constructor
  · intro below
    apply Decidable.byContradiction
    intro tooGreat
    have above := canonical.two_pow_le_units (by
      unfold unitExponent greatestExponent at *
      omega)
    have powers :
        2 ^ overflowExponent ≤ 2 ^ (52 + (exponent - unitExponent).toNat) := by
      apply Nat.pow_le_pow_right (by decide)
      unfold overflowExponent unitExponent
      unfold greatestExponent at tooGreat
      omega
    exact absurd below (Nat.not_lt.mpr (powers.trans above))
  · intro small
    apply canonical.units_lt_two_pow.trans_le
    apply Nat.pow_le_pow_right (by decide)
    unfold overflowExponent unitExponent
    unfold greatestExponent at small
    omega

end Canonical

/-! ## Rounding to the format -/

/-- Shifting keeps what was dropped as the two bits that decide the rounding. -/
theorem shift_exact
    (significand shift : Nat) :
    ExtendedMantissa.ofMantissaAndAccuracy significand .exact >>> shift =
      ⟨significand / 2 ^ shift,
        decide (2 ^ shift ≤ 2 * (significand % 2 ^ shift)),
        decide (2 * (significand % 2 ^ shift) ≠ 0 ∧
          2 * (significand % 2 ^ shift) ≠ 2 ^ shift)⟩ := by
  induction shift with
  | zero =>
      simp [ExtendedMantissa.ofMantissaAndAccuracy, HShiftRight.hShiftRight,
        Nat.repeat, Nat.mod_one]
  | succ shift inductionHypothesis =>
      change (ExtendedMantissa.ofMantissaAndAccuracy significand .exact >>>
        shift).shiftRightOne = _
      rw [inductionHypothesis, Nat.pow_succ, ExtendedMantissa.shiftRightOne,
        Nat.div_div_eq_div_mul]
      have rest := Nat.mod_mul (x := significand) (a := 2 ^ shift) (b := 2)
      have restLess : significand % 2 ^ shift < 2 ^ shift :=
        Nat.mod_lt _ (Nat.two_pow_pos shift)
      generalize 2 ^ shift = power at *
      generalize significand % power = low at *
      rw [ExtendedMantissa.mk.injEq]
      rcases Nat.mod_two_eq_zero_or_one (significand / power) with even | odd
      · rw [even, Nat.mul_zero, Nat.add_zero] at rest
        rw [rest, even]
        refine ⟨rfl, ?_, ?_⟩ <;> grind
      · rw [odd, Nat.mul_one] at rest
        rw [rest, odd]
        refine ⟨rfl, ?_, ?_⟩ <;> grind

/-- Shifting and rounding drops the bits that were shifted out. -/
theorem roundedMantissa_shift
    (significand shift : Nat) :
    (ExtendedMantissa.ofMantissaAndAccuracy significand .exact >>>
        shift).roundedMantissa =
      dropBits shift significand := by
  rw [shift_exact]
  have positive : 0 < 2 ^ shift := Nat.two_pow_pos shift
  unfold dropBits ExtendedMantissa.roundedMantissa
  generalize 2 ^ shift = power at *
  rcases lt_trichotomy (2 * (significand % power)) power with
    below | half | above
  · by_cases noRest : significand % power = 0
    · simp [noRest, positive, Nat.ne_of_gt positive, ExtendedMantissa.accuracy,
        Accuracy.roundToNearestEven]
    · simp [below, noRest, Nat.not_le.mpr below, Nat.ne_of_lt below,
        ExtendedMantissa.accuracy, Accuracy.roundToNearestEven]
  · simp [half, ExtendedMantissa.accuracy, Accuracy.roundToNearestEven]
  · have some : significand % power ≠ 0 := by omega
    simp [some, Nat.not_lt.mpr (Nat.le_of_lt above), Nat.le_of_lt above,
      Nat.ne_of_gt above, ExtendedMantissa.accuracy,
      Accuracy.roundToNearestEven]

/-! ### The exponent after rounding -/

/-- Rounding aims at 53 bits, but at no exponent below the least one. -/
theorem targetExponent_eq
    (significand : Nat)
    (exponent : Int) :
    Format.binary64.targetExponent (totalExponent significand exponent) =
      max (significand.log2 + exponent - 52) unitExponent := by
  unfold Format.targetExponent totalExponent unitExponent
  simp only [Format.mantissaBits, Format.minExponent]
  norm_num
  omega

/--
The number of bits of the units is that of the significand and of the exponent
together.
-/
theorem log2_units
    {significand : Nat}
    (positive : 0 < significand)
    (exponent : Int) :
    (unitsOf significand exponent).log2 =
      significand.log2 + (exponent - unitExponent).toNat := by
  have unitsNonzero : unitsOf significand exponent ≠ 0 :=
    (Nat.mul_pos positive (Nat.two_pow_pos _)).ne'
  rw [Nat.log2_eq_iff unitsNonzero, unitsOf, Nat.pow_add, Nat.pow_succ,
    Nat.pow_add, Nat.mul_right_comm, ← Nat.pow_succ]
  exact ⟨Nat.mul_le_mul_right _ (Nat.log2_self_le positive.ne'),
    (Nat.mul_lt_mul_right (Nat.two_pow_pos _)).mpr Nat.lt_log2_self⟩

/-- The exponent aimed at drops the bits beyond the precision. -/
theorem targetExponent_eq_excess
    {significand : Nat}
    {exponent : Int}
    (positive : 0 < significand)
    (least : unitExponent ≤ exponent) :
    Format.binary64.targetExponent (totalExponent significand exponent) =
      unitExponent + excess (unitsOf significand exponent) := by
  rw [targetExponent_eq, excess, log2_units positive exponent, precision]
  omega

/-- Shifting to the exponent aimed at drops the bits below it. -/
theorem shiftToTargetExponent_eq
    {significand : Nat}
    {exponent target : Int}
    (isTarget :
      Format.binary64.targetExponent (totalExponent significand exponent) =
        target) :
    shiftToTargetExponent Format.binary64 significand exponent .exact =
      (ExtendedMantissa.ofMantissaAndAccuracy significand .exact >>>
          (target - exponent).toNat,
        exponent + (target - exponent).toNat) := by
  unfold shiftToTargetExponent shiftToExponent
  rw [isTarget]

/-- A significand that fits needs no further shift. -/
theorem shiftToTargetExponent_of_fits
    {significand : Nat}
    {exponent : Int}
    (fits : significand < 2 ^ 53)
    (least : unitExponent ≤ exponent) :
    shiftToTargetExponent Format.binary64 significand exponent .exact =
      (⟨significand, false, false⟩, exponent) := by
  have log : significand.log2 ≤ 52 := by
    rcases Nat.eq_zero_or_pos significand with rfl | positive
    · decide
    · exact Nat.le_of_lt_succ ((Nat.log2_lt positive.ne').mpr fits)
  have noShift :
      (max (significand.log2 + exponent - 52) unitExponent - exponent).toNat =
        0 := by
    omega
  rw [shiftToTargetExponent_eq (targetExponent_eq significand exponent), noShift]
  exact congrArg _ (by simp)

/-- A carry out of the precision takes one more shift. -/
theorem shiftToTargetExponent_of_carry
    {exponent : Int}
    (least : unitExponent ≤ exponent) :
    shiftToTargetExponent Format.binary64 (2 ^ 53) exponent .exact =
      (⟨2 ^ 52, false, false⟩, exponent + 1) := by
  have isTarget :
      Format.binary64.targetExponent (totalExponent (2 ^ 53) exponent) =
        exponent + 1 := by
    rw [targetExponent_eq, Nat.log2_two_pow]
    omega
  have shift : (exponent + 1 - exponent).toNat = 1 := by omega
  rw [shiftToTargetExponent_eq isTarget, shift]
  rfl

/--
A number is rounded by two shifts, the second one for the bit that rounding up may
add.
-/
theorem roundWithAccuracy_eq
    {sign : Sign}
    {significand final : Nat}
    {exponent middle finalExponent : Int}
    {shifted : ExtendedMantissa}
    (first :
      shiftToTargetExponent Format.binary64 significand exponent .exact =
        (shifted, middle))
    (second :
      shiftToTargetExponent Format.binary64 shifted.roundedMantissa middle
          .exact =
        (⟨final, false, false⟩, finalExponent))
    (positive : 0 < final) :
    roundWithAccuracy Format.binary64 sign significand exponent .exact =
      .finite sign final finalExponent positive := by
  simp only [roundWithAccuracy, first, second, dif_neg positive.ne']

/-- A number is finite and positive, canonical, and counts some units. -/
def Counts
    (unpacked : UnpackedFloat)
    (units : Nat) :
    Prop :=
  ∃ significand exponent positive,
    unpacked = .finite .positive significand exponent positive ∧
    Canonical significand exponent ∧
    unitsOf significand exponent = units

/-- What is left after the first shift is canonical, but for a carry. -/
theorem counts_roundWithAccuracy
    {significand units : Nat}
    {exponent : Int}
    (positive : 0 < significand)
    (least : unitExponent ≤ exponent)
    (isUnits : unitsOf significand exponent = units)
    (notAbove : exponent ≤ unitExponent + excess units) :
    Counts
      (roundWithAccuracy Format.binary64 .positive significand exponent .exact)
      (rounded units) := by
  have unitsPositive : 0 < units :=
    isUnits ▸ Nat.mul_pos positive (Nat.two_pow_pos _)
  obtain ⟨target, isTarget⟩ :
      ∃ target : Int, unitExponent + excess units = target :=
    ⟨_, rfl⟩
  have unitsFrom : (target - unitExponent).toNat = excess units := by omega
  have leastTarget : unitExponent ≤ target := by omega
  have first :=
    shiftToTargetExponent_eq
      ((targetExponent_eq_excess positive least).trans (isUnits.symm ▸ isTarget))
  have reached : exponent + ((target - exponent).toNat : Int) = target := by omega
  have isRounded :
      dropBits (target - exponent).toNat significand =
        dropBits (excess units) units := by
    have split :
        (target - exponent).toNat + (exponent - unitExponent).toNat =
          excess units := by
      omega
    rw [← dropBits_mul _ (exponent - unitExponent).toNat, split, ← isUnits]
    rfl
  rw [reached] at first
  have small : dropBits (excess units) units ≤ 2 ^ 53 := dropBits_excess_le units
  have full :
      2 ^ 52 ≤ dropBits (excess units) units ∨ excess units = 0 :=
    (Nat.eq_zero_or_pos (excess units)).symm.imp_left le_dropBits_excess
  rcases Nat.lt_or_eq_of_le small with fits | carry
  · have nonzero : 0 < dropBits (excess units) units := by
      rcases full with normal | exact
      · omega
      · rw [exact, dropBits_zero]
        exact unitsPositive
    have second := shiftToTargetExponent_of_fits fits leastTarget
    rw [← isRounded, ← roundedMantissa_shift] at second nonzero
    refine ⟨_, _, _, roundWithAccuracy_eq first second nonzero, ?_, ?_⟩
    · rw [roundedMantissa_shift, isRounded]
      rw [roundedMantissa_shift, isRounded] at nonzero
      exact ⟨nonzero, fits, leastTarget, full.imp_right fun exact => by omega⟩
    · rw [roundedMantissa_shift, isRounded, unitsOf, unitsFrom, rounded]
  · have second := shiftToTargetExponent_of_carry leastTarget
    rw [← carry, ← isRounded, ← roundedMantissa_shift] at second
    have positive : 0 < 2 ^ 52 := Nat.two_pow_pos 52
    refine ⟨_, _, _, roundWithAccuracy_eq first second positive, ?_, ?_⟩
    · exact ⟨positive, by decide, by omega, .inl (le_refl _)⟩
    · have unitsAbove :
          (target + 1 - unitExponent).toNat = excess units + 1 := by
        omega
      rw [unitsOf, unitsAbove, rounded, carry, ← Nat.pow_add, ← Nat.pow_add]
      congr 1
      omega

/-- Rounding a positive number to the format rounds its units. -/
theorem counts_round
    {significand : Nat}
    {exponent : Int}
    (positive : 0 < significand)
    (least : unitExponent ≤ exponent) :
    Counts (UnpackedFloat.round Format.binary64 .positive significand exponent)
      (rounded (unitsOf significand exponent)) := by
  obtain ⟨target, isTarget⟩ :
      ∃ target : Int,
        unitExponent + excess (unitsOf significand exponent) = target :=
    ⟨_, rfl⟩
  have shifted :
      UnpackedFloat.round Format.binary64 .positive significand exponent =
        roundWithAccuracy Format.binary64 .positive
          (significand <<< (exponent - target).toNat)
          (exponent - (exponent - target).toNat) .exact := by
    unfold UnpackedFloat.round decreaseExponent
    rw [targetExponent_eq_excess positive least, isTarget]
  rw [shifted]
  apply counts_roundWithAccuracy
  · rw [Nat.shiftLeft_eq]
    exact Nat.mul_pos positive (Nat.two_pow_pos _)
  · omega
  · have split :
        (exponent - unitExponent).toNat =
          (exponent - target).toNat +
            (exponent - (exponent - target).toNat - unitExponent).toNat := by
      omega
    rw [unitsOf, unitsOf, Nat.shiftLeft_eq, Nat.mul_assoc, ← Nat.pow_add, split]
  · omega

end GraphScript.Rounding
