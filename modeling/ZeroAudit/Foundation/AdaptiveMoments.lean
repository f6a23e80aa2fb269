import Mathlib.Analysis.Real.Sqrt
import Mathlib.Tactic.FieldSimp
import Mathlib.Tactic.Linarith

namespace Foundation
namespace AdaptiveMoments

/-!
# Exponential averages of a gradient and of its square

An adaptive optimiser divides the running average of a gradient by the root of the running
average of its square, both corrected for their start at zero.  The square of the first
average stays below a multiple of the second, whatever the gradients are.  A step is thus
bounded by a multiple of the learning rate alone.
-/

/-- The two running averages. -/
structure Moments (K : Type*) where
  first : K
  second : K

section Averages

variable {K : Type*} [Field K] (decay decaySquare : K)

/-- The averages after one more gradient. -/
def Moments.next (moments : Moments K) (gradient : K) : Moments K :=
  { first := decay * moments.first + (1 - decay) * gradient
    second := decaySquare * moments.second + (1 - decaySquare) * (gradient * gradient) }

/-- The direction of a step, with the averages corrected for the number of gradients. -/
def Moments.direction (sqrt : K -> K) (epsilon : K) (count : Nat) (moments : Moments K) : K :=
  moments.first / (1 - decay ^ count) / (sqrt (moments.second / (1 - decaySquare ^ count)) + epsilon)

end Averages

/-- What the averages satisfy at every time. -/
structure Moments.Bounded (factor : ℝ) (moments : Moments ℝ) : Prop where
  nonneg : 0 ≤ moments.second
  square_le : moments.first ^ 2 ≤ factor * moments.second

theorem Moments.bounded_zero (factor : ℝ) : (Moments.mk 0 0).Bounded factor := ⟨le_rfl, by simp⟩

/-- The rates of decay for which the bound is kept. -/
structure Rates (decay decaySquare factor : ℝ) : Prop where
  factor_pos : 0 < factor
  square_pos : 0 < decaySquare
  square_lt_one : decaySquare < 1
  absorbs : decay ^ 2 * factor / decaySquare + (1 - decay) ^ 2 / (1 - decaySquare) ≤ factor

section Bounds

variable {decay decaySquare factor : ℝ} (rates : Rates decay decaySquare factor)
include rates

/-- One more gradient keeps the bound. -/
theorem Moments.Bounded.next {moments : Moments ℝ} (bounded : moments.Bounded factor) (gradient : ℝ) :
    (moments.next decay decaySquare gradient).Bounded factor := by
  have gap : 0 < 1 - decaySquare := sub_pos.mpr rates.square_lt_one
  have weight : 0 < factor * (1 - decaySquare) / decaySquare :=
    div_pos (mul_pos rates.factor_pos gap) rates.square_pos
  have second : 0 ≤ decaySquare * moments.second + (1 - decaySquare) * (gradient * gradient) :=
    add_nonneg (mul_nonneg rates.square_pos.le bounded.nonneg) (mul_nonneg gap.le (mul_self_nonneg gradient))
  refine ⟨second, ?_⟩
  -- The inequality of Cauchy and Schwarz for the two summands of the first average.
  have cauchy : (decay * moments.first + (1 - decay) * gradient) ^ 2 ≤
      (decay ^ 2 * factor / decaySquare + (1 - decay) ^ 2 / (1 - decaySquare)) *
        (decaySquare * (moments.first ^ 2 / factor) + (1 - decaySquare) * (gradient * gradient)) := by
    have difference : (decay ^ 2 * factor / decaySquare + (1 - decay) ^ 2 / (1 - decaySquare)) *
        (decaySquare * (moments.first ^ 2 / factor) + (1 - decaySquare) * (gradient * gradient)) -
          (decay * moments.first + (1 - decay) * gradient) ^ 2 =
        (decay * gradient * (factor * (1 - decaySquare) / decaySquare) - (1 - decay) * moments.first) ^ 2 /
          (factor * (1 - decaySquare) / decaySquare) := by
      have nonzero := rates.factor_pos.ne'
      have squareNonzero := rates.square_pos.ne'
      have gapNonzero := gap.ne'
      field_simp
      ring
    have positive := div_nonneg
      (sq_nonneg (decay * gradient * (factor * (1 - decaySquare) / decaySquare) - (1 - decay) * moments.first))
      weight.le
    linarith
  have shares : decaySquare * (moments.first ^ 2 / factor) + (1 - decaySquare) * (gradient * gradient) ≤
      decaySquare * moments.second + (1 - decaySquare) * (gradient * gradient) := by
    have share : moments.first ^ 2 / factor ≤ moments.second := by
      rw [div_le_iff₀ rates.factor_pos, mul_comm]
      exact bounded.square_le
    have scaled := mul_le_mul_of_nonneg_left share rates.square_pos.le
    linarith
  calc (decay * moments.first + (1 - decay) * gradient) ^ 2
      ≤ (decay ^ 2 * factor / decaySquare + (1 - decay) ^ 2 / (1 - decaySquare)) *
        (decaySquare * (moments.first ^ 2 / factor) + (1 - decaySquare) * (gradient * gradient)) := cauchy
    _ ≤ factor *
        (decaySquare * (moments.first ^ 2 / factor) + (1 - decaySquare) * (gradient * gradient)) := by
        apply mul_le_mul_of_nonneg_right rates.absorbs
        exact add_nonneg (mul_nonneg rates.square_pos.le (div_nonneg (sq_nonneg _) rates.factor_pos.le))
          (mul_nonneg gap.le (mul_self_nonneg gradient))
    _ ≤ factor * (decaySquare * moments.second + (1 - decaySquare) * (gradient * gradient)) :=
        mul_le_mul_of_nonneg_left shares rates.factor_pos.le

/-- Where the correction of the first average is no smaller than that of the second, the
direction of a step is bounded by the root of the factor. -/
theorem Moments.Bounded.abs_direction_le {moments : Moments ℝ} (bounded : moments.Bounded factor) {epsilon : ℝ}
    (positive : 0 < epsilon) {count : Nat} (corrected : 0 < 1 - decaySquare ^ count)
    (slower : 1 - decaySquare ^ count ≤ (1 - decay ^ count) ^ 2) :
    |moments.direction decay decaySquare Real.sqrt epsilon count| ≤ Real.sqrt factor := by
  have hat : 0 ≤ moments.second / (1 - decaySquare ^ count) := div_nonneg bounded.nonneg corrected.le
  have denominator : 0 < Real.sqrt (moments.second / (1 - decaySquare ^ count)) + epsilon :=
    add_pos_of_nonneg_of_pos (Real.sqrt_nonneg _) positive
  have square : (moments.first / (1 - decay ^ count)) ^ 2 ≤
      factor * (moments.second / (1 - decaySquare ^ count)) := by
    rw [div_pow, ← mul_div_assoc]
    exact div_le_div₀ (mul_nonneg rates.factor_pos.le bounded.nonneg) bounded.square_le corrected slower
  have root : |moments.first / (1 - decay ^ count)| ≤
      Real.sqrt factor * Real.sqrt (moments.second / (1 - decaySquare ^ count)) := by
    rw [← Real.sqrt_mul rates.factor_pos.le]
    exact Real.abs_le_sqrt square
  unfold Moments.direction
  rw [abs_div, abs_of_pos denominator, div_le_iff₀ denominator]
  apply root.trans
  apply mul_le_mul_of_nonneg_left _ (Real.sqrt_nonneg _)
  linarith

end Bounds

end AdaptiveMoments
end Foundation
