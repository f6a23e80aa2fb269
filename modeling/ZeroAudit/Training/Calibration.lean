import Mathlib
import ZeroAudit.Foundation.Quantile
import ZeroAudit.Intent.ScoreMap
import ZeroAudit.Training.OnnxExport

namespace ZeroAudit
namespace Training

open Foundation Foundation.Quantile Intent Matrix

/-!
# Calibration (`calibrate`, and the detector that loads it)

The percentiles of the reconstruction errors on held-out normal traffic are what the score
map is anchored at, which is a promise about how much normal traffic is alarmed.  The network
that is shipped answers in half precision, and so only something close to the errors that
were measured.  How much of the held-out traffic it alarms is counted up to this tolerance.
-/

/-- What numpy makes of a list of errors. -/
structure Numpy (K : Type*) where
  percentile : List K -> K -> K
  mean : List K -> K
  std : List K -> K

/-- The entries of the sidecar that are measured on held-out traffic. -/
structure CalibrationReport (K : Type*) where
  p50 : K
  p90 : K
  p95 : K
  p99 : K
  mean : K
  std : K

def calibrate {K : Type*} [Field K] (np : Numpy K) (errors : List K) : CalibrationReport K :=
  { p50 := np.percentile errors 50
    p90 := np.percentile errors 90
    p95 := np.percentile errors 95
    p99 := np.percentile errors 99
    mean := np.mean errors
    std := np.std errors }

/-- What the detector reads of the sidecar. -/
def CalibrationReport.forDetector (report : CalibrationReport ℚ) : Calibration := ⟨report.p50, report.p99⟩

/-! ## Percentiles -/

section Percentiles

variable {K : Type*} [Field K] [LinearOrder K] [FloorSemiring K]

/-- A percentile lies between the two errors on both sides of its position, and grows with the
percentage. -/
structure Interpolates (np : Numpy K) : Prop where
  brackets : ∀ values q, values ≠ [] -> 0 ≤ q -> q ≤ 100 -> Brackets values (q / 100) (np.percentile values q)
  mono : ∀ values q r, values ≠ [] -> 0 ≤ q -> q ≤ r -> r ≤ 100 -> np.percentile values q ≤ np.percentile values r

/-- The position of a percentile is a quotient of whole numbers. -/
theorem positionOf_percent (values : List K) (q : Nat) :
    positionOf values ((q : K) / 100) = ((q * (values.length - 1) : Nat) : K) / (100 : Nat) := by
  unfold positionOf
  push_cast
  ring

variable [IsStrictOrderedRing K]

theorem percent_range {q : Nat} (atMost : q ≤ 100) : (0 : K) ≤ q / 100 ∧ (q : K) / 100 ≤ 1 := by
  have cast : (q : K) ≤ 100 := by exact_mod_cast atMost
  exact ⟨by positivity, by linarith [div_le_one_of_le₀ cast (by norm_num)]⟩

variable {np : Numpy K} {values : List K} {q : Nat}

theorem brackets_percentile (interpolates : Interpolates np) (nonempty : values ≠ []) (atMost : q ≤ 100) :
    Brackets values (q / 100) (np.percentile values q) :=
  interpolates.brackets values q nonempty (Nat.cast_nonneg _) (by exact_mod_cast atMost)

theorem countP_above_percentile (interpolates : Interpolates np) (nonempty : values ≠ []) (atMost : q ≤ 100) :
    values.countP (fun x => decide (np.percentile values q < x)) ≤
      values.length - (q * (values.length - 1) / 100 + 1) := by
  have counted := (brackets_percentile interpolates nonempty atMost).countP_above nonempty
    (percent_range (K := K) atMost).1 (percent_range atMost).2
  rw [positionOf_percent, Nat.floor_div_eq_div] at counted
  exact counted

theorem countP_below_percentile (interpolates : Interpolates np) (nonempty : values ≠ []) (atMost : q ≤ 100) :
    values.countP (fun x => decide (x < np.percentile values q)) ≤ (q * (values.length - 1) + 99) / 100 := by
  have counted := (brackets_percentile interpolates nonempty atMost).countP_below
  rw [positionOf_percent] at counted
  apply counted.trans
  apply Nat.ceil_le.mpr
  rw [div_le_iff₀ (by norm_num)]
  have bound : q * (values.length - 1) ≤ (q * (values.length - 1) + 99) / 100 * 100 := by omega
  exact_mod_cast bound

end Percentiles

/-! ## Anchors of the score map -/

section Anchors

variable {K : Type*} [Field K] [LinearOrder K] [IsStrictOrderedRing K]

/-- An error up to the median scores zero. -/
theorem onnxScore_of_le_median (exp : K -> K) {p50 p99 reconError : K} (low : reconError ≤ p50) :
    onnxScore exp p50 p99 reconError = 0 := by
  have norm : (reconError - p50) / spanOf p50 p99 ≤ 0 :=
    div_nonpos_of_nonpos_of_nonneg (by linarith) (spanOf_pos p50 p99).le
  unfold onnxScore joined
  rw [if_pos (norm.trans zero_le_one)]
  apply max_eq_left
  exact (min_le_right _ _).trans (by linarith)

/-- The last percentile scores the quarantine line, where it is apart from the median. -/
theorem onnxScore_of_last {exp : K -> K} {p50 p99 : K} (apart : 1 / 10 ^ 9 ≤ p99 - p50) :
    onnxScore exp p50 p99 p99 = 3 / 4 := by
  have span : spanOf p50 p99 = p99 - p50 := max_eq_left apart
  have positive : p99 - p50 ≠ 0 := span ▸ (spanOf_pos p50 p99).ne'
  unfold onnxScore joined
  rw [span, div_self positive, if_pos le_rfl, mul_one, min_eq_right (by norm_num), max_eq_right (by norm_num)]

end Anchors

/-! ## The detector that is shipped -/

section Shipped

variable {n : Nat} {sizes : List Nat}

/-- The files of a training run in a detector: the percentiles of the errors on the rows that
were held out, and a network that answers each of these rows up to a tolerance. -/
structure Ships (np : Numpy ℚ) (tanh : ℚ -> ℚ) (params : Params ℚ N_FEATURES sizes N_FEATURES)
    (mu sigma : Fin N_FEATURES -> ℚ) (holdout : Matrix (Fin n) (Fin N_FEATURES) ℚ) (tolerance : ℚ)
    (detector : AnomalyDetector) : Prop where
  calibration : detector.calibration =
    some (calibrate np (List.ofFn (reconstructionError tanh params holdout mu sigma))).forDetector
  session : ∃ session, detector.session = some session ∧ ∀ row, ∃ answered,
    session (List.ofFn (holdout row)) = .ok (.finite answered) ∧
      |answered - reconstructionError tanh params holdout mu sigma row| ≤ tolerance

/-- What holds of some of these values holds of at least as many of the others. -/
theorem countP_ofFn_le {first second : Fin n -> ℚ} {p q : ℚ -> Bool}
    (carries : ∀ row, p (first row) = true -> q (second row) = true) :
    (List.ofFn first).countP p ≤ (List.ofFn second).countP q := by
  rw [List.ofFn_eq_map, List.ofFn_eq_map, List.countP_map, List.countP_map]
  exact List.countP_mono_left fun row _ => carries row

/-- The detector that loads the files of a training run scores the transactions that were held
out as they were calibrated, up to the tolerance: at most one in a hundred, rounded up, above
the score of the last percentile, which is the quarantine line, at least one in a hundred
there or above, and at least half of them at the score of the median, which is zero. -/
theorem shipped_alarm_rate {R : Runtime} (tapers : Tapers R.exp) {np : Numpy ℚ} (interpolates : Interpolates np)
    {tanh : ℚ -> ℚ} {params : Params ℚ N_FEATURES sizes N_FEATURES} {mu sigma : Fin N_FEATURES -> ℚ}
    {holdout : Matrix (Fin (n + 1)) (Fin N_FEATURES) ℚ} {tolerance : ℚ} {detector : AnomalyDetector}
    (ships : Ships np tanh params mu sigma holdout tolerance detector) {features : Fin (n + 1) -> Features}
    (extracted : ∀ row, (features row).toVector = List.ofFn (holdout row)) :
    ∃ p50 p99, detector.calibration = some ⟨p50, p99⟩ ∧ p50 ≤ p99 ∧ onnxScore R.exp p50 p99 p50 = 0 ∧
      (1 / 10 ^ 9 ≤ p99 - p50 -> onnxScore R.exp p50 p99 p99 = 3 / 4) ∧
      ∃ scores : Fin (n + 1) -> ℚ,
        (∀ row, ∃ loss, detector.novelty R (features row) = .ok (.finite (scores row), loss)) ∧
        100 * (List.ofFn scores).countP (fun score => decide (onnxScore R.exp p50 p99 (p99 + tolerance) < score)) ≤
          n + 99 ∧
        n + 1 ≤ 100 *
          (List.ofFn scores).countP (fun score => decide (onnxScore R.exp p50 p99 (p99 - tolerance) ≤ score)) ∧
        n + 1 ≤ 2 *
          (List.ofFn scores).countP (fun score => decide (score ≤ onnxScore R.exp p50 p99 (p50 + tolerance))) := by
  rcases ships.session with ⟨session, loaded, close⟩
  choose answered answers near using close
  let error := reconstructionError tanh params holdout mu sigma
  let errors := List.ofFn error
  have nonempty : errors ≠ [] := by simp [errors]
  have length : errors.length = n + 1 := List.length_ofFn
  let p50 := np.percentile errors 50
  let p99 := np.percentile errors 99
  have whole := fun p : ℚ -> Bool => List.length_eq_countP_add_countP p (l := errors)
  have ordered : p50 ≤ p99 := interpolates.mono errors 50 99 nonempty (by norm_num) (by norm_num) (by norm_num)
  refine ⟨p50, p99, ships.calibration, ordered, onnxScore_of_le_median _ le_rfl, onnxScore_of_last,
    fun row => onnxScore R.exp p50 p99 (answered row), ?_, ?_, ?_, ?_⟩
  · intro row
    refine ⟨.finite (answered row), ?_⟩
    unfold AnomalyDetector.novelty
    rw [loaded, ships.calibration]
    dsimp only
    rw [extracted row, answers row]
    exact congrArg (fun score => Except.ok (score, PyFloat.finite (answered row))) (calibrated_finite R ⟨p50, p99⟩ _)
  · have above : errors.countP (fun e => decide (p99 < e)) ≤
        errors.length - (99 * (errors.length - 1) / 100 + 1) :=
      countP_above_percentile (q := 99) interpolates nonempty (by norm_num)
    have alarmed : (List.ofFn fun row => onnxScore R.exp p50 p99 (answered row)).countP
        (fun score => decide (onnxScore R.exp p50 p99 (p99 + tolerance) < score)) ≤
          errors.countP fun e => decide (p99 < e) := by
      apply countP_ofFn_le
      intro row reached
      have beyond : p99 + tolerance < answered row :=
        lt_of_not_ge fun atMost => not_lt.mpr (onnxScore_mono tapers atMost) (of_decide_eq_true reached)
      have distance := (abs_le.mp (near row)).2
      exact decide_eq_true (by linarith)
    omega
  · have below : errors.countP (fun e => decide (e < p99)) ≤ (99 * (errors.length - 1) + 99) / 100 :=
      countP_below_percentile (q := 99) interpolates nonempty (by norm_num)
    have reached : errors.countP (fun e => !decide (e < p99)) ≤
        (List.ofFn fun row => onnxScore R.exp p50 p99 (answered row)).countP
          (fun score => decide (onnxScore R.exp p50 p99 (p99 - tolerance) ≤ score)) := by
      apply countP_ofFn_le
      intro row high
      simp only [Bool.not_eq_true', decide_eq_false_iff_not, not_lt] at high
      have distance := (abs_le.mp (near row)).1
      exact decide_eq_true (onnxScore_mono tapers (show p99 - tolerance ≤ answered row by linarith))
    have parts := whole fun e => decide (e < p99)
    simp only [Bool.not_eq_true, Bool.decide_eq_false] at parts
    omega
  · have above : errors.countP (fun e => decide (p50 < e)) ≤
        errors.length - (50 * (errors.length - 1) / 100 + 1) :=
      countP_above_percentile (q := 50) interpolates nonempty (by norm_num)
    have calm : errors.countP (fun e => !decide (p50 < e)) ≤
        (List.ofFn fun row => onnxScore R.exp p50 p99 (answered row)).countP
          (fun score => decide (score ≤ onnxScore R.exp p50 p99 (p50 + tolerance))) := by
      apply countP_ofFn_le
      intro row low
      simp only [Bool.not_eq_true', decide_eq_false_iff_not, not_lt] at low
      have distance := (abs_le.mp (near row)).2
      exact decide_eq_true (onnxScore_mono tapers (show answered row ≤ p50 + tolerance by linarith))
    have parts := whole fun e => decide (p50 < e)
    simp only [Bool.not_eq_true, Bool.decide_eq_false] at parts
    omega

/-! ## Three transactions, held out -/

/-- Percentiles by linear interpolation. -/
def sampleNumpy : Numpy ℚ where
  percentile values q := quantile values (q / 100)
  mean values := values.sum / values.length
  std _ := 0

theorem interpolates_sampleNumpy : Interpolates sampleNumpy where
  brackets _ q nonempty start atMost :=
    quantile_brackets nonempty (div_nonneg start (by norm_num)) ((div_le_one (by norm_num)).mpr atMost)
  mono _ q r nonempty start before atMost :=
    quantile_mono nonempty (div_nonneg start (by norm_num)) (div_le_div_of_nonneg_right before (by norm_num))
      ((div_le_one (by norm_num)).mpr atMost)

/-- A network of one layer that halves what it is given. -/
def halving : Params ℚ N_FEATURES [] N_FEATURES := .output (Matrix.diagonal fun _ => 1 / 2) 0

/-- Transactions that differ in their amounts. -/
def amounting (row : Fin 3) : Features where
  logAmount := row
  hourOfDay := 0
  dayOfWeek := 0
  txnTypeEnc := 0
  benfordSurprisal := 0
  velocity1h := 0
  graphHops := 0
  isOffhours := false
  isWeekend := false
  thresholdProximity := 0

def sampleHoldout : Matrix (Fin 3) (Fin N_FEATURES) ℚ :=
  Matrix.of fun row column => (amounting row).toVector.get column

theorem errors_sampleHoldout (row : Fin 3) :
    reconstructionError id halving sampleHoldout 0 1 row = (row : ℚ) ^ 2 / 40 := by
  fin_cases row <;> decide +kernel

/-- A detector whose network answers a thousandth more than was measured. -/
def shippedDetector : AnomalyDetector :=
  { Intent.sampleDetector with
    session := some fun vector => .ok (.finite (vector.headD 0 ^ 2 / 40 + 1 / 1000))
    calibration := some (calibrate sampleNumpy
      (List.ofFn (reconstructionError id halving sampleHoldout 0 1))).forDetector }

/-- An exponential function by its tangent. -/
def taperingRuntime : Runtime := { sampleRuntime with exp := fun x => max 0 (1 + x) }

theorem tapers_taperingRuntime : Tapers taperingRuntime.exp where
  mono := fun _ _ ordered => max_le_max_left 0 (by linarith)
  nonneg := fun _ => le_max_left _ _
  le_one := fun _ atMost => max_le zero_le_one (by linarith)

theorem shipped_alarm_rate_sample : ∃ p50 p99, shippedDetector.calibration = some ⟨p50, p99⟩ ∧
    ∃ scores : Fin 3 -> ℚ,
      (∀ row, ∃ loss, shippedDetector.novelty taperingRuntime (amounting row) = .ok (.finite (scores row), loss)) ∧
      100 * (List.ofFn scores).countP (fun score =>
        decide (onnxScore taperingRuntime.exp p50 p99 (p99 + 1 / 1000) < score)) ≤ 2 + 99 := by
  have ships : Ships sampleNumpy id halving 0 1 sampleHoldout (1 / 1000) shippedDetector := by
    refine ⟨rfl, _, rfl, ?_⟩
    intro row
    refine ⟨_, rfl, ?_⟩
    rw [errors_sampleHoldout]
    have first : (List.ofFn (sampleHoldout row)).headD 0 = row := rfl
    rw [first, add_sub_cancel_left]
    norm_num
  have extracted : ∀ row, (amounting row).toVector = List.ofFn (sampleHoldout row) := fun _ => rfl
  rcases shipped_alarm_rate tapers_taperingRuntime interpolates_sampleNumpy ships extracted with
    ⟨p50, p99, calibration, -, -, -, scores, scored, rare, -, -⟩
  exact ⟨p50, p99, calibration, scores, scored, rare⟩

end Shipped

end Training
end ZeroAudit
