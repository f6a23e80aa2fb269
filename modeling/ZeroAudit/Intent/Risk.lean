import ZeroAudit.Intent.Decisions

namespace ZeroAudit
namespace Intent

open Foundation

/-!
# A riskier transaction never scores lower

Features are compared axis by axis.  Where each axis is at least as risky, every rule
that matched is followed by one that is at least as strong, and every term of the
statistical score has grown.  The maximum of both, the rounding to four places and the
comparison with the threshold keep the order.
-/

variable {R : Runtime}

/-- The second features are at least as risky on every axis that a score reads. -/
structure AsRisky (features riskier : Features) : Prop where
  graphHops : riskier.graphHops ≤ features.graphHops
  thresholdProximity : features.thresholdProximity ≤ riskier.thresholdProximity
  velocity1h : features.velocity1h ≤ riskier.velocity1h
  benfordSurprisal : features.benfordSurprisal ≤ riskier.benfordSurprisal
  isOffhours : features.isOffhours = true -> riskier.isOffhours = true
  logAmount : features.logAmount ≤ riskier.logAmount

/-! ## Floats -/

/-- What a smaller number reaches, a greater one does. -/
theorem ge_of_le {x y : ℚ} (ordered : x ≤ y) {threshold : PyFloat}
    (reached : (PyFloat.finite x).ge threshold = true) : (PyFloat.finite y).ge threshold = true := by
  cases threshold with
  | finite line => exact decide_eq_true ((of_decide_eq_true reached).trans ordered)
  | posInf => cases reached
  | negInf => rfl
  | nan => cases reached

theorem clip_finite (x : ℚ) : clip (.finite x) = .finite (max 0 (min 1 x)) := by
  unfold clip PyFloat.lt PyFloat.zero
  dsimp only
  by_cases low : x < 1
  · rw [min_eq_right low.le]
    by_cases positive : 0 < x
    · simp [low, positive, positive.le]
    · simp [low, positive, not_lt.mp positive]
  · simp [low, min_eq_left (not_lt.mp low)]

theorem strongest_finite (x y : ℚ) :
    AnomalyDetector.strongest (.finite x) (.finite y) = .finite (max x y) := by
  unfold AnomalyDetector.strongest PyFloat.lt
  dsimp only
  by_cases less : x < y
  · simp [less, less.le]
  · simp [less, not_lt.mp less]

/-! ## Rules -/

/-- The score of the rules is one of theirs or zero, and none of theirs is greater. -/
theorem typology_spec (features : Features) (hops : Int) (graphFlag : String) :
    ∀ rule ∈ matchedRules features hops graphFlag, rule.1 ≤ (typology features hops graphFlag).1 := by
  unfold typology
  cases matchedRules features hops graphFlag with
  | nil => exact fun _ member => (List.not_mem_nil member).elim
  | cons first rest =>
      dsimp only
      induction rest generalizing first with
      | nil =>
          intro rule member
          rw [List.mem_singleton.mp member]
          exact le_rfl
      | cons next rest inductionHypothesis =>
          rw [List.foldl_cons]
          intro rule member
          -- The one of the first two that is kept is at least as strong as both.
          have kept : ∀ other, other = first ∨ other = next ->
              other.1 ≤ (if first.1 < next.1 then next else first).1 := by
            intro other either
            split
            · next less =>
                rcases either with rfl | rfl
                · exact less.le
                · exact le_rfl
            · next notLess =>
                rcases either with rfl | rfl
                · exact le_rfl
                · exact not_lt.mp notLess
          have best := inductionHypothesis (if first.1 < next.1 then next else first) _ List.mem_cons_self
          rcases List.mem_cons.mp member with here | later
          · exact (kept rule (Or.inl here)).trans best
          · rcases List.mem_cons.mp later with here | rest'
            · exact (kept rule (Or.inr here)).trans best
            · exact inductionHypothesis _ rule (List.mem_cons_of_mem _ rest')

theorem matched_nonneg {features : Features} {hops : Int} {graphFlag : String} {rule : ℚ × String}
    (member : rule ∈ matchedRules features hops graphFlag) : 0 ≤ rule.1 := by
  cases mem_matchedRules_iff.mp member <;> norm_num

/-- A rule that matches the features is followed by one at least as strong that matches the
riskier ones. -/
theorem exists_stronger {features riskier : Features} (risk : AsRisky features riskier) {hops fewer : Int}
    (near : fewer ≤ hops) {graphFlag other : String} {rule : ℚ × String}
    (matching : Matches features hops graphFlag rule) :
    ∃ stronger, Matches riskier fewer other stronger ∧ rule.1 ≤ stronger.1 := by
  have velocity : features.velocity1h * 100 ≤ riskier.velocity1h * 100 := by
    have grown := risk.velocity1h
    linarith
  cases matching with
  | listed few => exact ⟨_, .listed (near.trans few), le_rfl⟩
  | second two =>
      by_cases few : fewer ≤ 1
      · exact ⟨_, .listed few, by norm_num⟩
      · exact ⟨_, .second (by omega), le_rfl⟩
  | third three =>
      by_cases few : fewer ≤ 1
      · exact ⟨_, .listed few, by norm_num⟩
      · by_cases two : fewer = 2
        · exact ⟨_, .second two, by norm_num⟩
        · exact ⟨_, .third (by omega), le_rfl⟩
  | structuring close => exact ⟨_, .structuring (close.trans_le risk.thresholdProximity), le_rfl⟩
  | burst fast => exact ⟨_, .burst (fast.trans velocity), le_rfl⟩
  | spike slower fast =>
      by_cases faster : 20 ≤ riskier.velocity1h * 100
      · exact ⟨_, .burst faster, by norm_num⟩
      · exact ⟨_, .spike faster (fast.trans velocity), le_rfl⟩
  | benford surprising large =>
      exact ⟨_, .benford (surprising.trans risk.benfordSurprisal) (large.trans_le risk.logAmount), le_rfl⟩
  | offhours late large =>
      exact ⟨_, .offhours (risk.isOffhours late) (large.trans_le risk.logAmount), le_rfl⟩

/-- The rules score riskier features no lower. -/
theorem typology_mono {features riskier : Features} (risk : AsRisky features riskier) {hops fewer : Int}
    (near : fewer ≤ hops) (graphFlag other : String) :
    (typology features hops graphFlag).1 ≤ (typology riskier fewer other).1 := by
  rcases typology_cases features hops graphFlag with none | matched
  · rw [none]
    rcases typology_cases riskier fewer other with none' | matched'
    · rw [none']
    · exact matched_nonneg matched'
  · rcases exists_stronger risk near (mem_matchedRules_iff.mp matched) with ⟨stronger, matching, le⟩
    exact le.trans (typology_spec riskier fewer other stronger (mem_matchedRules_iff.mpr matching))

theorem hopsOf_mono {features riskier : Features} (risk : AsRisky features riskier) :
    AnomalyDetector.hopsOf riskier ≤ AnomalyDetector.hopsOf features := by
  apply Binary64.roundHalfEven_mono
  have nearer := risk.graphHops
  linarith

/-! ## The statistical score -/

theorem indicator_mono {flag other : Bool} (implied : flag = true -> other = true) :
    indicator flag ≤ indicator other := by
  unfold indicator
  cases flag with
  | false =>
      cases other with
      | false => exact le_rfl
      | true => exact zero_le_one
  | true =>
      rw [implied rfl]

/-- The statistical score of riskier features is no lower. -/
theorem statisticalScore_mono {features riskier : Features} (risk : AsRisky features riskier) :
    ∃ score grown, statisticalScore features = .finite score ∧ statisticalScore riskier = .finite grown ∧
      score ≤ grown := by
  unfold statisticalScore
  rw [clip_finite, clip_finite]
  refine ⟨_, _, rfl, rfl, ?_⟩
  have hops := risk.graphHops
  have surprisal := risk.benfordSurprisal
  have velocity := risk.velocity1h
  have offhours := indicator_mono risk.isOffhours
  have amount := risk.logAmount
  have proximity := risk.thresholdProximity
  gcongr

/-! ## The verdict -/

namespace AnomalyDetector

variable (R)

/-- What `score` makes of the features and the flag of the graph. -/
def assess (detector : AnomalyDetector) (txnId : Json) (features : Features) (graphFlag : String) :
    Except PyError Verdict := do
  let (noveltyScore, reconError) ← detector.novelty R features
  return detector.verdict txnId features noveltyScore reconError
    (typology features (hopsOf features) graphFlag)

/-- Every verdict of `score` is such an assessment of the features that it has extracted. -/
theorem assess_of_score {P : Platform} {detector after : AnomalyDetector} {outside : Surroundings}
    {call : Consumer.ScoreCall} {verdict : Verdict}
    (scored : detector.score P R outside call = (.ok verdict, after)) :
    ∃ entered features graphFlag graph,
      detector.recorded outside call = .ok entered ∧
      extractFeatures P R entered.graph entered.velocity outside call = (.ok (features, graphFlag), graph) ∧
      detector.assess R call.txnId features graphFlag = .ok verdict := by
  rcases score_inversion scored with
    ⟨entered, features, graphFlag, graph, noveltyScore, reconError, recorded, extracted, novel⟩
  refine ⟨entered, features, graphFlag, graph, recorded, extracted, ?_⟩
  rw [verdict_of_score scored recorded extracted novel]
  have same : detector.novelty R features = .ok (noveltyScore, reconError) := by
    rcases bind_eq_ok_iff.mp recorded with ⟨velocity, -, built⟩
    cases built
    exact novel
  unfold assess
  rw [same]
  rfl

/-- Whatever the backend, the rules score riskier features no lower.  Without a network,
the verdict on riskier features has no lower score, and is a quarantine if the other is. -/
theorem assess_mono {features riskier : Features} (risk : AsRisky features riskier) (txnId other : Json)
    (graphFlag otherFlag : String) :
    (∀ detector : AnomalyDetector, detector.session = none ->
      ∃ verdict grown, detector.assess R txnId features graphFlag = .ok verdict ∧
        detector.assess R other riskier otherFlag = .ok grown ∧
        grown.anomalyScore.ge verdict.anomalyScore = true ∧
        (verdict.quarantine = true -> grown.quarantine = true)) ∧
      ∀ (detector : AnomalyDetector) (verdict grown : Verdict),
        detector.assess R txnId features graphFlag = .ok verdict ->
        detector.assess R other riskier otherFlag = .ok grown ->
        grown.typologyScore.ge verdict.typologyScore = true := by
  have rules := typology_mono risk (hopsOf_mono risk) graphFlag otherFlag
  constructor
  · intro detector fallback
    rcases statisticalScore_mono risk with ⟨score, grown, first, second, le⟩
    unfold assess novelty
    rw [fallback, first, second]
    refine ⟨_, _, rfl, rfl, ?_, ?_⟩
    · unfold verdict
      dsimp only
      rw [PyFloat.literal, PyFloat.literal, strongest_finite, strongest_finite]
      exact PyFloat.round_mono (max_le_max le (Binary64.nearest_mono rules)) 4
    · unfold verdict
      dsimp only
      rw [PyFloat.literal, PyFloat.literal, strongest_finite, strongest_finite]
      exact ge_of_le (max_le_max le (Binary64.nearest_mono rules))
  · intro detector verdict grown assessed assessed'
    unfold assess at assessed assessed'
    rcases bind_eq_ok_iff.mp assessed with ⟨novelty, -, built⟩
    rcases bind_eq_ok_iff.mp assessed' with ⟨novelty', -, built'⟩
    cases built
    cases built'
    exact PyFloat.round_mono (Binary64.nearest_mono rules) 4

/-- Quiet features, and the same at the door of a listed counterparty. -/
def quietFeatures : Features where
  logAmount := 0
  hourOfDay := 0
  dayOfWeek := 0
  txnTypeEnc := 0
  benfordSurprisal := 0
  velocity1h := 0
  graphHops := 1
  isOffhours := false
  isWeekend := false
  thresholdProximity := 0

def nearFeatures : Features := { quietFeatures with graphHops := 1 / 8 }

theorem asRisky_nearFeatures : AsRisky quietFeatures nearFeatures where
  graphHops := by norm_num [quietFeatures, nearFeatures]
  thresholdProximity := le_rfl
  velocity1h := le_rfl
  benfordSurprisal := le_rfl
  isOffhours := id
  logAmount := le_rfl

theorem assess_mono_nearFeatures :
    (∀ detector : AnomalyDetector, detector.session = none ->
      ∃ verdict grown, detector.assess sampleRuntime .null quietFeatures "" = .ok verdict ∧
        detector.assess sampleRuntime .null nearFeatures "" = .ok grown ∧
        grown.anomalyScore.ge verdict.anomalyScore = true ∧
        (verdict.quarantine = true -> grown.quarantine = true)) ∧
      ∀ (detector : AnomalyDetector) (verdict grown : Verdict),
        detector.assess sampleRuntime .null quietFeatures "" = .ok verdict ->
        detector.assess sampleRuntime .null nearFeatures "" = .ok grown ->
        grown.typologyScore.ge verdict.typologyScore = true :=
  assess_mono sampleRuntime asRisky_nearFeatures .null .null "" ""

end AnomalyDetector

end Intent
end ZeroAudit
