import Mathlib.Analysis.Complex.Exponential
import ZeroAudit.Intent.Risk

namespace ZeroAudit
namespace Intent

open Foundation

/-!
# The score of a reconstruction error

A calibrated score is linear in the error up to the quarantine line and tapers
towards one beyond it, and is then cut off at zero and one.  Of the exponential
function only three facts matter: it is monotone, not negative, and at most one
on what is not positive.  The map is therefore stated for any ordered field with
such a function, which covers the rationals that the detector computes with and
the reals.
-/

section ScoreMap

variable {K : Type*} [Field K] [LinearOrder K]

/-- What the map needs of the exponential function. -/
structure Tapers (exp : K -> K) : Prop where
  mono : Monotone exp
  nonneg : ∀ x, 0 ≤ exp x
  le_one : ∀ x ≤ 0, exp x ≤ 1

/-- A calibrated detector scores with this map. -/
theorem calibrated_finite (R : Runtime) (calibration : Calibration) (reconError : ℚ) :
    calibrated R (some calibration) (.finite reconError) =
      .finite (onnxScore R.exp calibration.p50 calibration.p99 reconError) :=
  rfl

variable [IsStrictOrderedRing K] {exp : K -> K} {p50 p99 : K}

theorem spanOf_pos (p50 p99 : K) : 0 < spanOf p50 p99 := by
  apply lt_max_of_lt_right
  positivity

/-! ## The two pieces -/

/-- Beyond the line, the score stays above it and below one. -/
theorem joined_of_beyond (tapers : Tapers exp) {norm : K} (beyond : 1 < norm) :
    3 / 4 ≤ joined exp norm ∧ joined exp norm ≤ 1 := by
  have atMost := tapers.le_one (-(norm - 1)) (by linarith)
  have atLeast := tapers.nonneg (-(norm - 1))
  unfold joined
  rw [if_neg (not_le.mpr beyond)]
  constructor
  · linarith
  · linarith

theorem joined_mono (tapers : Tapers exp) : Monotone (joined exp) := by
  intro low high ordered
  by_cases inside : high ≤ 1
  · unfold joined
    rw [if_pos inside, if_pos (ordered.trans inside)]
    linarith
  · have beyond := not_le.mp inside
    by_cases linear : low ≤ 1
    · -- the pieces meet at the line
      have above := (joined_of_beyond tapers beyond).1
      have below : joined exp low ≤ 3 / 4 := by
        unfold joined
        rw [if_pos linear]
        linarith
      exact below.trans above
    · have decay := tapers.mono (show -(high - 1) ≤ -(low - 1) by linarith)
      unfold joined
      rw [if_neg linear, if_neg inside]
      linarith

/-- The line is reached at one. -/
theorem line_le_joined_iff (tapers : Tapers exp) (norm : K) : 3 / 4 ≤ joined exp norm ↔ 1 ≤ norm := by
  by_cases linear : norm ≤ 1
  · unfold joined
    rw [if_pos linear]
    constructor
    · intro reached
      linarith
    · intro reached
      linarith
  · have beyond := not_le.mp linear
    exact iff_of_true (joined_of_beyond tapers beyond).1 beyond.le

/-! ## The score -/

/-- A greater error never has a smaller score. -/
theorem onnxScore_mono (tapers : Tapers exp) : Monotone (onnxScore exp p50 p99) := by
  intro low high ordered
  have norms : (low - p50) / spanOf p50 p99 ≤ (high - p50) / spanOf p50 p99 :=
    div_le_div_of_nonneg_right (by linarith) (spanOf_pos p50 p99).le
  exact max_le_max_left 0 (min_le_min_left 1 (joined_mono tapers norms))

/-- The quarantine line is reached one span above the median. -/
theorem line_le_onnxScore_iff (tapers : Tapers exp) (reconError : K) :
    3 / 4 ≤ onnxScore exp p50 p99 reconError ↔ p50 + spanOf p50 p99 ≤ reconError := by
  have cut : 3 / 4 ≤ onnxScore exp p50 p99 reconError ↔
      3 / 4 ≤ joined exp ((reconError - p50) / spanOf p50 p99) := by
    unfold onnxScore
    rw [le_max_iff, le_min_iff]
    constructor
    · intro reached
      rcases reached with impossible | both
      · linarith
      · exact both.2
    · intro reached
      exact Or.inr ⟨by linarith, reached⟩
  rw [cut, line_le_joined_iff tapers, one_le_div (spanOf_pos p50 p99), le_sub_iff_add_le, add_comm]

end ScoreMap

/-- The scores of a detector whose runtime has such a function keep the order of the
errors. -/
theorem calibrated_mono {R : Runtime} (tapers : Tapers R.exp) (calibration : Calibration) {low high : ℚ}
    (ordered : low ≤ high) : ∃ score greater, calibrated R (some calibration) (.finite low) = .finite score ∧
      calibrated R (some calibration) (.finite high) = .finite greater ∧ score ≤ greater :=
  ⟨_, _, calibrated_finite R calibration low, calibrated_finite R calibration high,
    onnxScore_mono tapers ordered⟩

/-! ## Over the reals -/

theorem tapers_exp : Tapers Real.exp where
  mono := Real.exp_monotone
  nonneg := fun x => (Real.exp_pos x).le
  le_one := fun _ atMost => Real.exp_le_one_iff.mpr atMost

/-- With the real exponential function and any calibration, the score lies between zero
and one, grows with the error, and reaches the quarantine line exactly one span above the
median. -/
theorem onnxScore_anchored (p50 p99 : ℝ) :
    (∀ reconError, 0 ≤ onnxScore Real.exp p50 p99 reconError ∧ onnxScore Real.exp p50 p99 reconError ≤ 1) ∧
      (∀ low high, low ≤ high -> onnxScore Real.exp p50 p99 low ≤ onnxScore Real.exp p50 p99 high) ∧
        ∀ reconError, 3 / 4 ≤ onnxScore Real.exp p50 p99 reconError ↔
          p50 + max (p99 - p50) (1 / 10 ^ 9) ≤ reconError := by
  refine ⟨onnxScore_range Real.exp p50 p99, ?_, ?_⟩
  · intro low high ordered
    exact onnxScore_mono tapers_exp ordered
  · intro reconError
    exact line_le_onnxScore_iff tapers_exp reconError

end Intent
end ZeroAudit
