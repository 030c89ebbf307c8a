import GraphScript.Proofs.Rounding.Unpacked

namespace GraphScript.Rounding

open Float.Model Float.Model.UnpackedFloat

/-!
# Packed floating-point numbers

A number is packed into its sign, its exponent and its significand. Canonical
numbers come out of their packed form as they were, unless the exponent is too
great and the packed form is that of an infinity. Numbers that are unpacked are
canonical.
-/

/-! ## Components -/

/-- The significand of a normal number has one more bit than its packed form. -/
theorem toNat_one_append
    (significand : BitVec 52) :
    (1#1 ++ significand).toNat = 2 ^ 52 + significand.toNat := by
  rw [BitVec.toNat_append, ← Nat.shiftLeft_add_eq_or_of_lt significand.isLt]
  rfl

theorem pos_iff_ne_zero
    {exponent : BitVec 11} :
    0 < exponent.toNat ↔ exponent ≠ 0#11 := by
  rw [Nat.pos_iff_ne_zero, ne_eq, ne_eq, ← BitVec.toNat_inj]
  rfl

theorem lt_iff_ne_greatest
    {exponent : BitVec 11} :
    exponent.toNat < 2047 ↔ exponent ≠ -1#11 := by
  have small := exponent.isLt
  have greatest : (-1#11).toNat = 2047 := by decide
  rw [ne_eq, ← BitVec.toNat_inj, greatest]
  omega

/-! ## Unpacking -/

/-- The components from which a finite number other than zero is unpacked. -/
theorem components_of_finite
    {bits : BitVec Format.binary64.numBits}
    {sign : Sign}
    {significand : Nat}
    {exponent : Int}
    {positive : 0 < significand}
    (unpacked :
      UnpackedFloat.unpack Format.binary64 bits =
        .finite sign significand exponent positive) :
    Sign.ofBitVec (unpackSign bits) = sign ∧
      ((unpackExponent bits).toNat = 0 ∧
          exponent = unitExponent ∧
          significand = (unpackMantissa bits).toNat ∨
        0 < (unpackExponent bits).toNat ∧
          (unpackExponent bits).toNat < 2047 ∧
          exponent = (unpackExponent bits).toNat - 1075 ∧
          significand = 2 ^ 52 + (unpackMantissa bits).toNat) := by
  unfold UnpackedFloat.unpack at unpacked
  dsimp only at unpacked
  split at unpacked
  · split at unpacked <;> cases unpacked
  · next notGreatest =>
      split at unpacked
      · next isLeast =>
          split at unpacked
          · cases unpacked
          · cases unpacked
            refine ⟨rfl, .inl ⟨?_, ?_, rfl⟩⟩
            · rw [isLeast]
              rfl
            · rw [isLeast]
              rfl
      · next notLeast =>
          cases unpacked
          exact ⟨rfl, .inr ⟨pos_iff_ne_zero.mpr notLeast,
            lt_iff_ne_greatest.mpr notGreatest, rfl, toNat_one_append _⟩⟩

/-- What is unpacked is canonical, and its exponent is not too great. -/
theorem canonical_of_unpack
    {bits : BitVec Format.binary64.numBits}
    {sign : Sign}
    {significand : Nat}
    {exponent : Int}
    {positive : 0 < significand}
    (unpacked :
      UnpackedFloat.unpack Format.binary64 bits =
        .finite sign significand exponent positive) :
    Canonical significand exponent ∧ exponent ≤ greatestExponent := by
  have small : (unpackMantissa bits).toNat < 2 ^ 52 := (unpackMantissa bits).isLt
  unfold greatestExponent
  rcases (components_of_finite unpacked).2 with
    ⟨_, isLeast, isSignificand⟩ | ⟨isPositive, isLess, isExponent, isSignificand⟩
  · refine ⟨⟨positive, by omega, by omega, .inr isLeast⟩, ?_⟩
    rw [isLeast]
    decide
  · refine ⟨⟨positive, by omega, ?_, .inl (by omega)⟩, by omega⟩
    unfold unitExponent
    omega

/-! ## Packing -/

/-- A zero is packed without loss. -/
theorem unpack_pack_zero
    (sign : Sign) :
    UnpackedFloat.unpack Format.binary64
        (UnpackedFloat.pack Format.binary64 (.zero sign)) =
      .zero sign := by
  cases sign <;> rfl

/-- An infinity is packed without loss. -/
theorem unpack_pack_infinity
    (sign : Sign) :
    UnpackedFloat.unpack Format.binary64
        (UnpackedFloat.pack Format.binary64 (.infinity sign)) =
      .infinity sign := by
  cases sign <;> rfl

/-- A number whose exponent is too great is packed as an infinity. -/
theorem unpack_pack_overflow
    {sign : Sign}
    {significand : Nat}
    {exponent : Int}
    (positive : 0 < significand)
    (tooGreat : greatestExponent < exponent) :
    UnpackedFloat.unpack Format.binary64
        (UnpackedFloat.pack Format.binary64
          (.finite sign significand exponent positive)) =
      .infinity sign := by
  have packed :
      UnpackedFloat.pack Format.binary64
          (.finite sign significand exponent positive) =
        packedInfinity Format.binary64 sign := by
    unfold UnpackedFloat.pack
    rw [if_pos]
    change 2048 ≤ (exponent + 1023 + 52).toNat + 1
    unfold greatestExponent at tooGreat
    omega
  rw [packed]
  exact unpack_pack_infinity sign

/-- A number with a middle exponent has one more bit than its significand shows. -/
theorem unpack_normal
    (sign : Sign)
    {exponent : BitVec 11}
    {significand : BitVec 52}
    (notLeast : exponent ≠ 0#11)
    (notGreatest : exponent ≠ -1#11) :
    UnpackedFloat.unpack Format.binary64
        (packComponents Format.binary64 sign exponent significand) =
      .finite sign (2 ^ 52 + significand.toNat) (exponent.toNat - 1075)
        (by omega) := by
  unfold UnpackedFloat.unpack
  simp only [unpackMantissa_packComponents, unpackExponent_packComponents,
    unpackSign_packComponents, Sign.ofBitVec_toBitVec]
  rw [if_neg notGreatest, if_neg notLeast]
  simp only [toNat_one_append]
  rfl

/-- A number with the least exponent is its significand. -/
theorem unpack_subnormal
    (sign : Sign)
    {significand : BitVec 52}
    (positive : 0 < significand.toNat) :
    UnpackedFloat.unpack Format.binary64
        (packComponents Format.binary64 sign 0#11 significand) =
      .finite sign significand.toNat unitExponent positive := by
  have nonzero : significand ≠ 0#52 := by
    rintro rfl
    cases positive
  unfold UnpackedFloat.unpack
  simp only [unpackMantissa_packComponents, unpackExponent_packComponents,
    unpackSign_packComponents, Sign.ofBitVec_toBitVec]
  rw [if_neg (by decide), if_pos trivial, dif_neg nonzero]
  rfl

/-- A significand of full width is packed without its first bit. -/
theorem pack_normal
    (sign : Sign)
    {significand : Nat}
    {exponent : Int}
    (canonical : Canonical significand exponent)
    (notTooGreat : exponent ≤ greatestExponent)
    (normal : 2 ^ 52 ≤ significand) :
    UnpackedFloat.pack Format.binary64
        (.finite sign significand exponent canonical.positive) =
      packComponents Format.binary64 sign
        (BitVec.ofNat 11 (exponent + 1075).toNat)
        (BitVec.ofNat 52 significand) := by
  have log : significand.log2 + 1 = Format.binary64.mantissaBits := by
    rw [(Nat.log2_eq_iff canonical.positive.ne').mpr ⟨normal, canonical.fits⟩]
    rfl
  have isBiased : (exponent + 1023 + 52).toNat = (exponent + 1075).toNat := by
    omega
  have noOverflow : ¬ 2048 ≤ (exponent + 1023 + 52).toNat + 1 := by
    unfold greatestExponent at notTooGreat
    omega
  unfold UnpackedFloat.pack
  change (if 2048 ≤ (exponent + 1023 + 52).toNat + 1 then _ else _) = _
  rw [if_neg noOverflow, if_pos log, ← isBiased]
  rfl

/-- A smaller significand is packed as it is, with the least exponent. -/
theorem pack_subnormal
    (sign : Sign)
    {significand : Nat}
    {exponent : Int}
    (canonical : Canonical significand exponent)
    (notTooGreat : exponent ≤ greatestExponent)
    (subnormal : significand < 2 ^ 52) :
    UnpackedFloat.pack Format.binary64
        (.finite sign significand exponent canonical.positive) =
      packComponents Format.binary64 sign 0#11
        (BitVec.ofNat 52 significand) := by
  have log : significand.log2 + 1 ≠ Format.binary64.mantissaBits := by
    have small := (Nat.log2_lt canonical.positive.ne').mpr subnormal
    change significand.log2 + 1 ≠ 53
    omega
  have noOverflow : ¬ 2048 ≤ (exponent + 1023 + 52).toNat + 1 := by
    unfold greatestExponent at notTooGreat
    omega
  unfold UnpackedFloat.pack
  change (if 2048 ≤ (exponent + 1023 + 52).toNat + 1 then _ else _) = _
  rw [if_neg noOverflow, if_neg log]

/-- A canonical number is packed without loss. -/
theorem unpack_pack_finite
    {sign : Sign}
    {significand : Nat}
    {exponent : Int}
    (canonical : Canonical significand exponent)
    (notTooGreat : exponent ≤ greatestExponent) :
    UnpackedFloat.unpack Format.binary64
        (UnpackedFloat.pack Format.binary64
          (.finite sign significand exponent canonical.positive)) =
      .finite sign significand exponent canonical.positive := by
  have least := canonical.leastExponent
  have fits := canonical.fits
  have greatest := notTooGreat
  unfold unitExponent at least
  unfold greatestExponent at greatest
  rcases Nat.lt_or_ge significand (2 ^ 52) with subnormal | normal
  · have isLeast := canonical.full.resolve_left (Nat.not_le.mpr subnormal)
    have significandField : (BitVec.ofNat 52 significand).toNat = significand := by
      rw [BitVec.toNat_ofNat, Nat.mod_eq_of_lt subnormal]
    have positive : 0 < (BitVec.ofNat 52 significand).toNat := by
      rw [significandField]
      exact canonical.positive
    rw [pack_subnormal sign canonical notTooGreat subnormal,
      unpack_subnormal sign positive]
    simp only [significandField, isLeast]
  · have exponentField :
        (BitVec.ofNat 11 (exponent + 1075).toNat).toNat =
          (exponent + 1075).toNat := by
      rw [BitVec.toNat_ofNat, Nat.mod_eq_of_lt (by omega)]
    have significandField :
        2 ^ 52 + (BitVec.ofNat 52 significand).toNat = significand := by
      rw [BitVec.toNat_ofNat]
      omega
    have notLeast : BitVec.ofNat 11 (exponent + 1075).toNat ≠ 0#11 :=
      pos_iff_ne_zero.mp (by omega)
    have notGreatest : BitVec.ofNat 11 (exponent + 1075).toNat ≠ -1#11 :=
      lt_iff_ne_greatest.mp (by omega)
    rw [pack_normal sign canonical notTooGreat normal,
      unpack_normal sign notLeast notGreatest]
    simp only [exponentField, significandField, UnpackedFloat.finite.injEq,
      true_and]
    omega

end GraphScript.Rounding
