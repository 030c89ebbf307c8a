import GraphScript.Proofs.Rounding.Packed

namespace GraphScript.Rounding

open Float.Model Float.Model.UnpackedFloat

/-!
# Sums of numbers that are not below zero

A number that is not below zero counts units, and infinity counts as many as
there are where numbers are no longer finite. Such numbers are compared by their
units, and the sum of two of them has the rounded sum of their units, or is
infinite if these are too many.
-/

/-- A number is not below zero, and counts some units. -/
inductive Amounts :
    UnpackedFloat → Nat → Prop
  | zero
      (sign : Sign) :
      Amounts (.zero sign) 0
  | finite
      {significand : Nat}
      {exponent : Int}
      (canonical : Canonical significand exponent)
      (notTooGreat : exponent ≤ greatestExponent) :
      Amounts (.finite .positive significand exponent canonical.positive)
        (unitsOf significand exponent)
  | infinity :
      Amounts (.infinity .positive) overflow

theorem overflow_pos :
    0 < overflow :=
  Nat.two_pow_pos overflowExponent

theorem rounded_overflow :
    rounded overflow = overflow := by
  have fits : 1 < 2 ^ precision := by decide
  have single := rounded_mul_two_pow fits overflowExponent
  rwa [Nat.one_mul] at single

namespace Amounts

variable {left right : UnpackedFloat} {units otherUnits : Nat}

theorem rounded_units
    (amounts : Amounts left units) :
    rounded units = units := by
  cases amounts with
  | zero sign =>
      have fits : 0 < 2 ^ precision := Nat.two_pow_pos precision
      have none := rounded_mul_two_pow fits 0
      rwa [Nat.zero_mul] at none
  | finite canonical _ =>
      exact canonical.rounded_units
  | infinity =>
      exact rounded_overflow

theorem isFinite_of_lt
    (amounts : Amounts left units)
    (below : units < overflow) :
    left.isFinite = true := by
  cases amounts with
  | infinity => exact absurd below (Nat.lt_irrefl overflow)
  | zero sign => rfl
  | finite canonical notTooGreat => rfl

theorem eq_infinity
    (amounts : Amounts left overflow) :
    left = .infinity .positive := by
  generalize isUnits : overflow = units at amounts
  cases amounts with
  | zero sign =>
      exact absurd isUnits overflow_pos.ne'
  | finite canonical notTooGreat =>
      exact absurd isUnits
        (canonical.units_lt_overflow_iff.mpr notTooGreat).ne'
  | infinity =>
      rfl

/-- Finite numbers with the same units are the same, but for the sign of zero. -/
theorem eq_of_units_eq
    (leftAmounts : Amounts left units)
    (rightAmounts : Amounts right units)
    (isFinite : units < overflow)
    (leftNoNegativeZero : left ≠ .zero .negative)
    (rightNoNegativeZero : right ≠ .zero .negative) :
    left = right := by
  cases leftAmounts with
  | infinity =>
      exact absurd isFinite (Nat.lt_irrefl overflow)
  | zero sign =>
      generalize isNone : (0 : Nat) = units at rightAmounts
      cases rightAmounts with
      | infinity =>
          exact absurd isNone overflow_pos.ne
      | zero otherSign =>
          cases sign <;> cases otherSign <;> simp_all
      | finite canonical _ =>
          exact absurd isNone canonical.units_pos.ne
  | finite canonical notTooGreat =>
      generalize isUnits : unitsOf _ _ = units at rightAmounts
      cases rightAmounts with
      | infinity =>
          exact absurd isUnits isFinite.ne
      | zero otherSign =>
          exact absurd isUnits canonical.units_pos.ne'
      | finite otherCanonical _ =>
          obtain ⟨rfl, rfl⟩ := canonical.eq_of_units_eq otherCanonical isUnits
          rfl

/-- Numbers that are not below zero are compared by their units. -/
theorem compare_eq
    (leftAmounts : Amounts left units)
    (rightAmounts : Amounts right otherUnits) :
    left.compare right = some (compare units otherUnits) := by
  cases leftAmounts with
  | zero sign =>
      cases rightAmounts with
      | zero otherSign =>
          rfl
      | finite canonical _ =>
          rw [compare_lt_iff_lt.mpr canonical.units_pos]
          rfl
      | infinity =>
          rw [compare_lt_iff_lt.mpr overflow_pos]
          rfl
  | finite canonical notTooGreat =>
      have below := canonical.units_lt_overflow_iff.mpr notTooGreat
      cases rightAmounts with
      | zero otherSign =>
          rw [compare_gt_iff_gt.mpr canonical.units_pos]
          rfl
      | finite otherCanonical _ =>
          rw [canonical.compare_units otherCanonical]
          rfl
      | infinity =>
          rw [compare_lt_iff_lt.mpr below]
          rfl
  | infinity =>
      cases rightAmounts with
      | zero otherSign =>
          rw [compare_gt_iff_gt.mpr overflow_pos]
          rfl
      | finite canonical notTooGreat =>
          rw [compare_gt_iff_gt.mpr
            (canonical.units_lt_overflow_iff.mpr notTooGreat)]
          rfl
      | infinity =>
          rw [compare_eq_iff_eq.mpr rfl]
          rfl

end Amounts

/-! ## Addition -/

theorem unitsOf_shiftLeft
    (significand : Nat)
    {exponent common : Int}
    (least : unitExponent ≤ common)
    (below : common ≤ exponent) :
    unitsOf (significand <<< (exponent - common).toNat) common =
      unitsOf significand exponent := by
  have split :
      (exponent - unitExponent).toNat =
        (exponent - common).toNat + (common - unitExponent).toNat := by
    omega
  rw [unitsOf, unitsOf, Nat.shiftLeft_eq, split, Nat.pow_add, Nat.mul_assoc]

/-- Significands are added at the lesser of the exponents, before rounding. -/
theorem add_finite
    {significand otherSignificand : Nat}
    (exponent otherExponent : Int)
    (positive : 0 < significand)
    (otherPositive : 0 < otherSignificand) :
    let common := min exponent otherExponent
    UnpackedFloat.add Format.binary64
        (.finite .positive significand exponent positive)
        (.finite .positive otherSignificand otherExponent otherPositive) =
      UnpackedFloat.round Format.binary64 .positive
        (significand <<< (exponent - common).toNat +
          otherSignificand <<< (otherExponent - common).toNat)
        common := by
  intro common
  generalize isTotal :
    significand <<< (exponent - common).toNat +
      otherSignificand <<< (otherExponent - common).toNat = total
  have totalPositive : 0 < total := by
    rw [← isTotal, Nat.shiftLeft_eq]
    exact Nat.add_pos_left (Nat.mul_pos positive (Nat.two_pow_pos _)) _
  have isMantissa :
      Sign.positive.apply (significand <<< (exponent - common).toNat : Nat) +
          Sign.positive.apply
            (otherSignificand <<< (otherExponent - common).toNat : Nat) =
        (total : Int) := by
    rw [← isTotal]
    rfl
  have isPositive : compare (total : Int) 0 = .gt :=
    compare_gt_iff_gt.mpr (Int.natCast_pos.mpr totalPositive)
  unfold UnpackedFloat.add
  change
    UnpackedFloat.normalize Format.binary64
        (Sign.positive.apply (significand <<< (exponent - common).toNat : Nat) +
          Sign.positive.apply
            (otherSignificand <<< (otherExponent - common).toNat : Nat))
        common _ = _
  rw [isMantissa, UnpackedFloat.normalize, isPositive]
  rfl

/-- Finite positive numbers are added exactly, and then rounded. -/
theorem counts_add
    {significand otherSignificand : Nat}
    {exponent otherExponent : Int}
    (canonical : Canonical significand exponent)
    (otherCanonical : Canonical otherSignificand otherExponent) :
    Counts
      (UnpackedFloat.add Format.binary64
        (.finite .positive significand exponent canonical.positive)
        (.finite .positive otherSignificand otherExponent
          otherCanonical.positive))
      (rounded
        (unitsOf significand exponent +
          unitsOf otherSignificand otherExponent)) := by
  have least := canonical.leastExponent
  have otherLeast := otherCanonical.leastExponent
  rw [add_finite]
  generalize isCommon : min exponent otherExponent = common
  have commonLeast : unitExponent ≤ common := by omega
  rw [← unitsOf_shiftLeft significand commonLeast (by omega),
    ← unitsOf_shiftLeft otherSignificand commonLeast (by omega),
    unitsOf, unitsOf, ← Nat.add_mul, ← unitsOf]
  apply counts_round _ commonLeast
  rw [Nat.shiftLeft_eq]
  exact Nat.add_pos_left
    (Nat.mul_pos canonical.positive (Nat.two_pow_pos _)) _

/-- What is left of a number when it is packed and unpacked. -/
def repacked
    (unpacked : UnpackedFloat) :
    UnpackedFloat :=
  UnpackedFloat.unpack Format.binary64
    (UnpackedFloat.pack Format.binary64 unpacked)

theorem amounts_repacked_of_counts
    {unpacked : UnpackedFloat}
    {units : Nat}
    (counts : Counts unpacked units)
    (below : units < overflow) :
    Amounts (repacked unpacked) units ∧
      repacked unpacked ≠ .zero .negative := by
  obtain ⟨significand, exponent, positive, rfl, canonical, rfl⟩ := counts
  have notTooGreat := canonical.units_lt_overflow_iff.mp below
  rw [repacked, unpack_pack_finite canonical notTooGreat]
  exact ⟨.finite canonical notTooGreat, nofun⟩

theorem repacked_of_counts_of_overflow
    {unpacked : UnpackedFloat}
    {units : Nat}
    (counts : Counts unpacked units)
    (above : overflow ≤ units) :
    repacked unpacked = .infinity .positive := by
  obtain ⟨significand, exponent, positive, rfl, canonical, rfl⟩ := counts
  apply unpack_pack_overflow
  rw [← Nat.not_lt, canonical.units_lt_overflow_iff] at above
  omega

theorem Amounts.repacked_eq
    {unpacked : UnpackedFloat}
    {units : Nat}
    (amounts : Amounts unpacked units) :
    repacked unpacked = unpacked := by
  cases amounts with
  | zero sign =>
      exact unpack_pack_zero sign
  | finite canonical notTooGreat =>
      exact unpack_pack_finite canonical notTooGreat
  | infinity =>
      exact unpack_pack_infinity .positive

/-- Adding to infinity gives infinity. -/
theorem repacked_infinity_add
    {right : UnpackedFloat}
    {otherUnits : Nat}
    (amounts : Amounts right otherUnits) :
    repacked (UnpackedFloat.add Format.binary64 (.infinity .positive) right) =
      .infinity .positive := by
  have added :
      UnpackedFloat.add Format.binary64 (.infinity .positive) right =
        .infinity .positive := by
    cases amounts <;> rfl
  rw [added]
  exact Amounts.infinity.repacked_eq

/-- What the sum of two numbers is that are not below zero. -/
theorem sum_cases
    {left right : UnpackedFloat}
    {units otherUnits : Nat}
    (leftAmounts : Amounts left units)
    (leftFinite : units < overflow)
    (noNegativeZero : left ≠ .zero .negative)
    (rightAmounts : Amounts right otherUnits) :
    (rounded (units + otherUnits) < overflow ∧
      Amounts (repacked (UnpackedFloat.add Format.binary64 left right))
        (rounded (units + otherUnits)) ∧
      repacked (UnpackedFloat.add Format.binary64 left right) ≠
        .zero .negative) ∨
    (overflow ≤ rounded (units + otherUnits) ∧
      repacked (UnpackedFloat.add Format.binary64 left right) =
        .infinity .positive) := by
  cases leftAmounts with
  | infinity =>
      exact absurd leftFinite (Nat.lt_irrefl overflow)
  | zero sign =>
      obtain rfl : sign = .positive := by
        cases sign with
        | positive => rfl
        | negative => exact absurd rfl noNegativeZero
      rw [Nat.zero_add, rightAmounts.rounded_units]
      cases rightAmounts with
      | zero otherSign =>
          have added :
              UnpackedFloat.add Format.binary64 (.zero .positive)
                  (.zero otherSign) =
                .zero .positive := by
            cases otherSign <;> rfl
          rw [added, repacked, unpack_pack_zero]
          exact .inl ⟨overflow_pos, .zero .positive, nofun⟩
      | finite canonical notTooGreat =>
          have amounts := Amounts.finite canonical notTooGreat
          refine .inl ⟨canonical.units_lt_overflow_iff.mpr notTooGreat, ?_, ?_⟩
          · exact amounts.repacked_eq.symm ▸ amounts
          · exact amounts.repacked_eq.symm ▸ nofun
      | infinity =>
          exact .inr ⟨le_refl _, unpack_pack_infinity .positive⟩
  | finite canonical notTooGreat =>
      have amounts := Amounts.finite canonical notTooGreat
      cases rightAmounts with
      | zero otherSign =>
          rw [Nat.add_zero, canonical.rounded_units]
          refine .inl ⟨leftFinite, ?_, ?_⟩
          · exact amounts.repacked_eq.symm ▸ amounts
          · exact amounts.repacked_eq.symm ▸ nofun
      | finite otherCanonical _ =>
          have counts := counts_add canonical otherCanonical
          rcases Nat.lt_or_ge
              (rounded (unitsOf _ _ + unitsOf _ _)) overflow with below | above
          · exact .inl ⟨below, amounts_repacked_of_counts counts below⟩
          · exact .inr ⟨above, repacked_of_counts_of_overflow counts above⟩
      | infinity =>
          refine .inr ⟨?_, unpack_pack_infinity .positive⟩
          calc
            overflow = rounded overflow := rounded_overflow.symm
            _ ≤ _ := rounded_mono (Nat.le_add_left _ _)

end GraphScript.Rounding
