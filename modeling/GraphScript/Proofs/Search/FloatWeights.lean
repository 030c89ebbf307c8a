import GraphScript.Proofs.Rounding.Sums
import GraphScript.Proofs.Search.WalkSums

namespace GraphScript.Search

open Rounding Float.Model

/-!
# Floating-point weights

Floating-point numbers obey the laws of weights, although their sums are
rounded: weights are the numbers that are not below zero, infinity among them,
and distances the finite ones without a negative zero.
-/

/-- A number is not below zero, and counts some units. -/
def HasUnits
    (number : Float)
    (units : Nat) :
    Prop :=
  Amounts number.toModel.unpack units

/-- A number is finite and not below zero, and it is no negative zero. -/
structure HasLength
    (number : Float)
    (units : Nat) :
    Prop where
  hasUnits : HasUnits number units
  finite : units < overflow
  noNegativeZero : number.toModel.unpack ≠ .zero .negative

/-- Zero is a length of no units. -/
theorem zero_hasLength :
    HasLength 0.0 0 :=
  ⟨.zero .positive, overflow_pos, nofun⟩

/-- A length is finite. -/
theorem HasLength.isFinite
    {number : Float}
    {units : Nat}
    (length : HasLength number units) :
    number.toModel.unpack.isFinite = true :=
  length.hasUnits.isFinite_of_lt length.finite

/-- What counts as many units as the overflow is not finite. -/
theorem isFinite_of_overflow
    {number : Float}
    (above : HasUnits number overflow) :
    number.toModel.unpack.isFinite = false := by
  rw [above.eq_infinity]
  rfl

/-! ## Comparing -/

/-- Weights are compared as the numbers they are. -/
theorem less_eq_true_iff
    (left right : Float) :
    Weight.less left right = true ↔
      left.toModel.unpack.compare right.toModel.unpack = some .lt := by
  change decide (Float.lt left right = true) = true ↔ _
  rw [decide_eq_true_iff]
  change decide (left.toModel < right.toModel) = true ↔ _
  rw [decide_eq_true_iff]
  change
    (left.toModel.unpack.compare right.toModel.unpack == some .lt) = true ↔ _
  cases left.toModel.unpack.compare right.toModel.unpack with
  | none =>
      simp
  | some order =>
      cases order <;> simp

variable {left right : Float} {units otherUnits : Nat}

/-- Weights are ordered as the units they count. -/
theorem atMost_iff
    (leftUnits : HasUnits left units)
    (rightUnits : HasUnits right otherUnits) :
    AtMost left right ↔ units ≤ otherUnits := by
  rw [AtMost, ← Bool.not_eq_true, less_eq_true_iff,
    Amounts.compare_eq rightUnits leftUnits, Option.some.injEq,
    compare_lt_iff_lt, Nat.not_lt]

/-- A number that is not below zero counts some units. -/
theorem exists_units_of_zero_le
    {number : Float}
    (notBelow : 0.0 ≤ number) :
    ∃ units, HasUnits number units := by
  change decide ((0.0 : Float).toModel ≤ number.toModel) = true at notBelow
  rw [decide_eq_true_iff] at notBelow
  change
    ((UnpackedFloat.compare (.zero .positive) number.toModel.unpack).any
      (·.isLE)) = true at notBelow
  unfold HasUnits
  cases unpacked : number.toModel.unpack with
  | notANumber =>
      rw [unpacked] at notBelow
      cases notBelow
  | infinity sign =>
      cases sign with
      | positive =>
          exact ⟨overflow, .infinity⟩
      | negative =>
          rw [unpacked] at notBelow
          cases notBelow
  | zero sign =>
      exact ⟨0, .zero sign⟩
  | finite sign significand exponent positive =>
      cases sign with
      | positive =>
          obtain ⟨canonical, notTooGreat⟩ := canonical_of_unpack unpacked
          exact ⟨_, .finite canonical notTooGreat⟩
      | negative =>
          rw [unpacked] at notBelow
          cases notBelow

/-- Weights are ordered as floating-point numbers are. -/
theorem atMost_iff_le
    (leftUnits : HasUnits left units)
    (rightUnits : HasUnits right otherUnits) :
    AtMost left right ↔ left ≤ right := by
  have compared := Amounts.compare_eq leftUnits rightUnits
  have isLE :
      left ≤ right ↔
        (left.toModel.unpack.compare right.toModel.unpack).any (·.isLE) =
          true := by
    change decide (left.toModel ≤ right.toModel) = true ↔ _
    rw [decide_eq_true_iff]
    rfl
  rw [atMost_iff leftUnits rightUnits, isLE, compared]
  exact Nat.isLE_compare.symm

/-- Numbers of the same finite length are the same. -/
theorem eq_of_length_eq
    (leftLength : HasLength left units)
    (rightLength : HasLength right units) :
    left = right := by
  have sameUnpacked : left.toModel.unpack = right.toModel.unpack :=
    leftLength.hasUnits.eq_of_units_eq rightLength.hasUnits leftLength.finite
      leftLength.noNegativeZero rightLength.noNegativeZero
  have sameBits : left.toBits.toBitVec = right.toBits.toBitVec :=
    (UnpackedFloat.unpack_inj_of_valid left.toModel.valid
      right.toModel.valid).mp sameUnpacked
  exact Float.toBits_inj.mp (UInt64.toBitVec_inj.mp sameBits)

/-! ## Adding -/

/-- A sum is added exactly and packed again. -/
theorem unpack_add
    (left right : Float) :
    (left + right).toModel.unpack =
      repacked
        (UnpackedFloat.add Format.binary64 left.toModel.unpack
          right.toModel.unpack) :=
  rfl

/-- A sum counts the rounded sum of the units, or there are too many of them. -/
theorem add_cases
    (leftLength : HasLength left units)
    (rightUnits : HasUnits right otherUnits) :
    HasLength (left + right) (rounded (units + otherUnits)) ∨
    overflow ≤ rounded (units + otherUnits) ∧
      HasUnits (left + right) overflow := by
  have cases :=
    sum_cases leftLength.hasUnits leftLength.finite leftLength.noNegativeZero
      rightUnits
  rw [← unpack_add] at cases
  rcases cases with ⟨below, amounts, noNegativeZero⟩ | ⟨above, infinite⟩
  · exact .inl ⟨amounts, below, noNegativeZero⟩
  · refine .inr ⟨above, ?_⟩
    rw [HasUnits, infinite]
    exact .infinity

/-- A sum that is a length is accepted. -/
theorem add?_of_length
    (length : HasLength (left + right) units) :
    Weight.add? left right = some (left + right) :=
  if_pos length.isFinite

/-- A sum that overflows is refused. -/
theorem add?_of_overflow
    (above : HasUnits (left + right) overflow) :
    Weight.add? left right = none :=
  if_neg (ne_true_of_eq_false (isFinite_of_overflow above))

/-- Adding to infinity gives infinity. -/
theorem overflow_add
    (leftUnits : HasUnits left overflow)
    (rightUnits : HasUnits right otherUnits) :
    HasUnits (left + right) overflow := by
  rw [HasUnits, unpack_add, leftUnits.eq_infinity,
    repacked_infinity_add rightUnits]
  exact .infinity

/-- An accepted sum is a length, rounded from both summands. -/
theorem length_of_add?
    {sum : Float}
    (leftLength : HasLength left units)
    (rightUnits : HasUnits right otherUnits)
    (isSum : Weight.add? left right = some sum) :
    HasLength sum (rounded (units + otherUnits)) := by
  rcases add_cases leftLength rightUnits with length | ⟨_, above⟩
  · rw [add?_of_length length] at isSum
    cases isSum
    exact length
  · rw [add?_of_overflow above] at isSum
    cases isSum

/-- Fewer units have a lesser sum. -/
theorem exists_lesser_sum
    {greaterLeft greaterRight sum : Float}
    {greaterUnits greaterOtherUnits : Nat}
    (leftLength : HasLength left units)
    (rightUnits : HasUnits right otherUnits)
    (greaterLeftLength : HasLength greaterLeft greaterUnits)
    (greaterRightUnits : HasUnits greaterRight greaterOtherUnits)
    (below : units + otherUnits ≤ greaterUnits + greaterOtherUnits)
    (isSum : Weight.add? greaterLeft greaterRight = some sum) :
    ∃ lesser, Weight.add? left right = some lesser ∧ AtMost lesser sum := by
  have sumLength := length_of_add? greaterLeftLength greaterRightUnits isSum
  rcases add_cases leftLength rightUnits with lesserLength | ⟨above, _⟩
  · refine ⟨left + right, add?_of_length lesserLength, ?_⟩
    rw [atMost_iff lesserLength.hasUnits sumLength.hasUnits]
    exact rounded_mono below
  · exact absurd sumLength.finite
      (Nat.not_lt.mpr (above.trans (rounded_mono below)))

/-! ## The laws -/

instance : LawfulWeight Float where
  IsWeight number := ∃ units, HasUnits number units
  IsDistance number := ∃ units, HasLength number units
  unit_isWeight := exists_units_of_zero_le (by decide)
  ofNumber?_isWeight := by
    intro number notBelow
    obtain ⟨units, hasUnits⟩ := exists_units_of_zero_le notBelow
    have zeroUnits := zero_hasLength.hasUnits
    have notNegative : ¬ number < 0.0 :=
      of_decide_eq_false ((atMost_iff zeroUnits hasUnits).mpr (Nat.zero_le units))
    exact ⟨number, if_neg notNegative, units, hasUnits⟩
  zero_isDistance := ⟨0, zero_hasLength⟩
  add?_isDistance := by
    rintro left right sum ⟨units, leftLength⟩ ⟨otherUnits, rightUnits⟩ isSum
    exact ⟨_, length_of_add? leftLength rightUnits isSum⟩
  atMost_total := by
    rintro left right ⟨units, leftLength⟩ ⟨otherUnits, rightLength⟩
    rw [atMost_iff leftLength.hasUnits rightLength.hasUnits,
      atMost_iff rightLength.hasUnits leftLength.hasUnits]
    exact Nat.le_total units otherUnits
  atMost_trans := by
    rintro left middle right ⟨_, leftLength⟩ ⟨_, middleLength⟩
      ⟨_, rightLength⟩
    rw [atMost_iff leftLength.hasUnits middleLength.hasUnits,
      atMost_iff middleLength.hasUnits rightLength.hasUnits,
      atMost_iff leftLength.hasUnits rightLength.hasUnits]
    exact Nat.le_trans
  atMost_antisymm := by
    rintro left right ⟨units, leftLength⟩ ⟨otherUnits, rightLength⟩
    rw [atMost_iff leftLength.hasUnits rightLength.hasUnits,
      atMost_iff rightLength.hasUnits leftLength.hasUnits]
    intro below above
    cases Nat.le_antisymm below above
    exact eq_of_length_eq leftLength rightLength
  atMost_add? := by
    rintro left right sum ⟨units, leftLength⟩ ⟨otherUnits, rightUnits⟩ isSum
    have sumLength := length_of_add? leftLength rightUnits isSum
    rw [atMost_iff leftLength.hasUnits sumLength.hasUnits]
    calc
      units = rounded units := leftLength.hasUnits.rounded_units.symm
      _ ≤ rounded (units + otherUnits) := rounded_mono (Nat.le_add_right _ _)
  add?_mono := by
    rintro left other right sum ⟨units, leftLength⟩ ⟨otherUnits, otherLength⟩
      ⟨rightUnits, rightHas⟩ below isSum
    rw [atMost_iff leftLength.hasUnits otherLength.hasUnits] at below
    exact exists_lesser_sum leftLength rightHas otherLength rightHas
      (Nat.add_le_add_right below rightUnits) isSum

instance : MonotoneWeight Float where
  weight_total := by
    rintro left right ⟨units, leftUnits⟩ ⟨otherUnits, rightUnits⟩
    rw [atMost_iff leftUnits rightUnits, atMost_iff rightUnits leftUnits]
    exact Nat.le_total units otherUnits
  weight_trans := by
    rintro left middle right ⟨_, leftUnits⟩ ⟨_, middleUnits⟩ ⟨_, rightUnits⟩
    rw [atMost_iff leftUnits middleUnits, atMost_iff middleUnits rightUnits,
      atMost_iff leftUnits rightUnits]
    exact Nat.le_trans
  add?_mono_weight := by
    rintro left lighter heavier sum ⟨units, leftLength⟩
      ⟨lighterUnits, lighterHas⟩ ⟨heavierUnits, heavierHas⟩ below isSum
    rw [atMost_iff lighterHas heavierHas] at below
    exact exists_lesser_sum leftLength lighterHas leftLength heavierHas
      (Nat.add_le_add_left below units) isSum

/-! ## Plain sums -/

/-- The sum of some numbers from left to right. -/
def plainSum
    (numbers : List Float) :
    Float :=
  numbers.foldl (· + ·) 0.0

/-- A plain sum with one more number is the plain sum before it and that number. -/
theorem plainSum_append_singleton
    (numbers : List Float)
    (number : Float) :
    plainSum (numbers ++ [number]) = plainSum numbers + number := by
  simp [plainSum]

/-- Numbers that are not below zero have a finite sum, or add up to infinity. -/
theorem total?_cases
    {numbers : List Float}
    (areWeights : ∀ number ∈ numbers, LawfulWeight.IsWeight number) :
    (total? numbers = some (plainSum numbers) ∧
      ∃ units, HasLength (plainSum numbers) units) ∨
    total? numbers = none ∧ HasUnits (plainSum numbers) overflow := by
  induction numbers using List.reverseRecOn with
  | nil =>
      exact .inl ⟨rfl, 0, zero_hasLength⟩
  | append_singleton earlier last inductionHypothesis =>
      obtain ⟨lastUnits, lastHas⟩ := areWeights last (by simp)
      have earlierAre :
          ∀ number ∈ earlier, LawfulWeight.IsWeight number :=
        fun number member => areWeights number (List.mem_append_left _ member)
      have isTotal :
          total? (earlier ++ [last]) =
            (total? earlier).bind fun sum => Weight.add? sum last := by
        simp [total?, List.foldlM_append]
      rw [isTotal, plainSum_append_singleton]
      rcases inductionHypothesis earlierAre with
        ⟨isEarlier, units, length⟩ | ⟨noEarlier, above⟩
      · rw [isEarlier, Option.bind_some]
        rcases add_cases length lastHas with sumLength | ⟨_, above⟩
        · exact .inl ⟨add?_of_length sumLength, _, sumLength⟩
        · exact .inr ⟨add?_of_overflow above, above⟩
      · rw [noEarlier]
        exact .inr ⟨rfl, overflow_add above lastHas⟩

/-- The sums of walks are their plain sums, where these are finite. -/
theorem walkSum_iff_plainSum
    {graph : Graph}
    {start node : String}
    {sum : Float}
    (weights : graph.HasValidWeights) :
    graph.WalkSum start node sum ↔
      ∃ walked,
        graph.Walk start node walked ∧
        plainSum walked = sum ∧
        sum.isFinite = true := by
  rw [Graph.walkSum_iff]
  refine exists_congr fun walked => and_congr_right fun walk => ?_
  rcases total?_cases (weights.isWeight_of_walk walk) with
    ⟨isTotal, units, length⟩ | ⟨noTotal, above⟩
  · rw [isTotal, Option.some.injEq]
    constructor
    · rintro rfl
      exact ⟨rfl, length.isFinite⟩
    · rintro ⟨same, _⟩
      exact same
  · rw [noTotal]
    constructor
    · nofun
    · rintro ⟨rfl, finite⟩
      exact absurd finite (ne_true_of_eq_false (isFinite_of_overflow above))

end GraphScript.Search
