import ZeroAudit.Chain.History
import ZeroAudit.Intent.AnomalyDetector
import ZeroAudit.SamplePlatform
import Mathlib.Tactic.NormNum
import Mathlib.Tactic.Linarith

namespace ZeroAudit
namespace Intent

open Foundation Commitment

/-!
# Who decides on the quarantine

The detector compares the score itself with the threshold, the store the score
that the verdict carries, which is rounded to four places.  The scores of rules
are not changed by rounding.  A novelty score is, and can cross the threshold.
Then the verdict and the status of the record differ, and no reason is given for
a status that the detector did not decide.
-/

/-! ## Scores -/

/-- A clipped score lies between zero and one. -/
theorem clip_range (x : PyFloat) : ∃ score, clip x = .finite score ∧ 0 ≤ score ∧ score ≤ 1 := by
  unfold clip
  cases x with
  | finite own =>
      by_cases low : own < 1
      · by_cases positive : 0 < own
        · exact ⟨own, by simp [PyFloat.lt, PyFloat.zero, low, positive], positive.le, low.le⟩
        · exact ⟨0, by simp [PyFloat.lt, PyFloat.zero, low, positive], le_rfl, zero_le_one⟩
      · exact ⟨1, by simp [PyFloat.lt, PyFloat.zero, low], zero_le_one, le_rfl⟩
  | posInf => exact ⟨1, by simp [PyFloat.lt, PyFloat.zero], zero_le_one, le_rfl⟩
  | negInf => exact ⟨0, by simp [PyFloat.lt, PyFloat.zero], le_rfl, zero_le_one⟩
  | nan => exact ⟨1, by simp [PyFloat.lt, PyFloat.zero], zero_le_one, le_rfl⟩

/-- Whatever the network answers, the novelty score lies between zero and one. -/
theorem novelty_range {R : Runtime} {detector : AnomalyDetector} {features : Features}
    {noveltyScore reconError : PyFloat}
    (scored : detector.novelty R features = .ok (noveltyScore, reconError)) :
    ∃ score, noveltyScore = .finite score ∧ 0 ≤ score ∧ score ≤ 1 := by
  unfold AnomalyDetector.novelty at scored
  split at scored
  · rcases bind_eq_ok_iff.mp scored with ⟨error, -, same⟩
    cases same
    unfold calibrated
    split
    · exact ⟨_, rfl, onnxScore_range ..⟩
    · exact clip_range _
    · exact clip_range _
  · cases scored
    exact clip_range _

/-! ## Rules -/

/-- Up to three hops the graph gives a reason. -/
theorem programSeverity_ne_none {hops : Int} (near : hops ≤ 3) : programSeverity hops ≠ "NONE" := by
  unfold programSeverity
  split
  · decide
  · split
    · decide
    · split
      · decide
      · rw [if_neg (by omega)]
        decide

/-- So does the client, whatever the database answers. -/
theorem hopsToSanctioned_explained (client : SanctionsGraphClient) (answer : GraphAnswer)
    (near : (client.hopsToSanctioned answer).1.1 ≤ 3) : (client.hopsToSanctioned answer).1.2 ≠ "NONE" := by
  have far : ¬SAFE_DEFAULT.1 ≤ 3 := by decide
  unfold SanctionsGraphClient.hopsToSanctioned at near ⊢
  by_cases online : client.available = true
  · rw [if_pos online] at near ⊢
    cases answer with
    | failed => exact absurd near far
    | nothing => exact absurd near far
    | reached hops => exact programSeverity_ne_none near
  · rw [if_neg online] at near
    exact absurd near far

/-- The hops are read back as they were found, up to eight. -/
theorem hopsOf_of_graphHops {features : Features} {hops : Int}
    (found : features.graphHops = min ((hops : ℚ) / 8) 1) :
    AnomalyDetector.hopsOf features = min hops 8 := by
  unfold AnomalyDetector.hopsOf
  have whole : min ((hops : ℚ) / 8) 1 * 8 = ((min hops 8 : Int) : ℚ) := by
    rw [min_mul_of_nonneg _ _ (by norm_num), Int.cast_min]
    congr 1
    · field_simp
    · norm_num
  rw [found, whole, Binary64.roundHalfEven_intCast]

/-- The flag that comes with the features is a reason, if the hops that are read
back from them are few. -/
theorem flag_of_extractFeatures {P : Platform} {R : Runtime} {graph after : SanctionsGraphClient}
    {velocity : VelocityTracker} {outside : Surroundings} {call : Consumer.ScoreCall}
    {features : Features} {graphFlag : String}
    (extracted : extractFeatures P R graph velocity outside call = (.ok (features, graphFlag), after))
    (near : AnomalyDetector.hopsOf features ≤ 3) : graphFlag ≠ "NONE" := by
  unfold extractFeatures at extracted
  simp only at extracted
  split at extracted
  · cases extracted
  · rcases Prod.mk.inj extracted with ⟨built, -⟩
    rcases bind_eq_ok_iff.mp built with ⟨recent, -, built⟩
    rcases bind_eq_ok_iff.mp built with ⟨amount, -, same⟩
    cases same
    rw [hopsOf_of_graphHops rfl] at near
    apply hopsToSanctioned_explained
    omega

/-- What is known of a rule that matches. -/
structure Explains (rule : ℚ × String) : Prop where
  positive : 0 < rule.1
  unit : rule.1 ≤ 1
  multiple : ∃ n : Int, rule.1 * 10 ^ 4 = n
  reason : rule.2 ≠ "NONE"

theorem explains_of_flag {score : ℚ} {flag default : String} (positive : 0 < score) (unit : score ≤ 1)
    (multiple : ∃ n : Int, score * 10 ^ 4 = n) (named : flag ≠ "NONE") (other : default ≠ "NONE") :
    Explains (score, flagOr flag default) := by
  refine ⟨positive, unit, multiple, ?_⟩
  unfold flagOr
  dsimp only
  split
  · exact other
  · exact named

/-- The rules, each with what makes it match. -/
inductive Matches (features : Features) (hops : Int) (graphFlag : String) : ℚ × String -> Prop
  | listed (near : hops ≤ 1) : Matches features hops graphFlag (95 / 100, flagOr graphFlag "OFAC_SANCTION_LIST")
  | second (near : hops = 2) : Matches features hops graphFlag (85 / 100, flagOr graphFlag "RBI_FLAG_2024")
  | third (near : hops = 3) : Matches features hops graphFlag (70 / 100, flagOr graphFlag "FATF_GREY_LIST")
  | structuring (close : 90 / 100 < features.thresholdProximity) :
      Matches features hops graphFlag (90 / 100, "STRUCTURING_PATTERN")
  | burst (fast : 20 ≤ features.velocity1h * 100) :
      Matches features hops graphFlag (92 / 100, "VELOCITY_SPIKE")
  | spike (slower : ¬20 ≤ features.velocity1h * 100) (fast : 12 ≤ features.velocity1h * 100) :
      Matches features hops graphFlag (80 / 100, "VELOCITY_SPIKE")
  | benford (surprising : 99 / 100 ≤ features.benfordSurprisal) (large : 55 / 100 < features.logAmount) :
      Matches features hops graphFlag (62 / 100, "BENFORD_VIOLATION")
  | offhours (late : features.isOffhours = true) (large : 60 / 100 < features.logAmount) :
      Matches features hops graphFlag (60 / 100, "OFFHOURS_HIGH_VALUE")

theorem mem_matchedRules_iff {features : Features} {hops : Int} {graphFlag : String} {rule : ℚ × String} :
    rule ∈ matchedRules features hops graphFlag ↔ Matches features hops graphFlag rule := by
  unfold matchedRules
  simp only [List.mem_append]
  constructor
  · rintro ((((near | structuring) | spike) | benford) | offhours)
    · split at near
      · next few => exact List.mem_singleton.mp near ▸ .listed few
      · split at near
        · next two => exact List.mem_singleton.mp near ▸ .second two
        · split at near
          · next three => exact List.mem_singleton.mp near ▸ .third three
          · cases near
    · split at structuring
      · next close => exact List.mem_singleton.mp structuring ▸ .structuring close
      · cases structuring
    · split at spike
      · next fast => exact List.mem_singleton.mp spike ▸ .burst fast
      · next slower =>
          split at spike
          · next fast => exact List.mem_singleton.mp spike ▸ .spike slower fast
          · cases spike
    · split at benford
      · next both => exact List.mem_singleton.mp benford ▸ .benford both.1 both.2
      · cases benford
    · split at offhours
      · next both => exact List.mem_singleton.mp offhours ▸ .offhours both.1 both.2
      · cases offhours
  · intro matching
    cases matching with
    | listed near => simp [near]
    | second near => simp [near]
    | third near => simp [near]
    | structuring close => simp [close]
    | burst fast => simp [fast]
    | spike slower fast => simp [slower, fast]
    | benford surprising large => simp [surprising, large]
    | offhours late large => simp [late, large]

/-- Every rule that matches explains itself. -/
theorem explains_of_matched {features : Features} {hops : Int} {graphFlag : String}
    (named : hops ≤ 3 -> graphFlag ≠ "NONE") {rule : ℚ × String}
    (member : rule ∈ matchedRules features hops graphFlag) : Explains rule := by
  cases mem_matchedRules_iff.mp member with
  | listed near => exact explains_of_flag (by norm_num) (by norm_num) ⟨9500, by norm_num⟩ (named (by omega)) (by decide)
  | second near => exact explains_of_flag (by norm_num) (by norm_num) ⟨8500, by norm_num⟩ (named (by omega)) (by decide)
  | third near => exact explains_of_flag (by norm_num) (by norm_num) ⟨7000, by norm_num⟩ (named (by omega)) (by decide)
  | structuring close => exact ⟨by norm_num, by norm_num, ⟨9000, by norm_num⟩, by simp⟩
  | burst fast => exact ⟨by norm_num, by norm_num, ⟨9200, by norm_num⟩, by simp⟩
  | spike slower fast => exact ⟨by norm_num, by norm_num, ⟨8000, by norm_num⟩, by simp⟩
  | benford surprising large => exact ⟨by norm_num, by norm_num, ⟨6200, by norm_num⟩, by simp⟩
  | offhours late large => exact ⟨by norm_num, by norm_num, ⟨6000, by norm_num⟩, by simp⟩

/-- The strongest rule is one of those that match. -/
theorem typology_cases (features : Features) (hops : Int) (graphFlag : String) :
    typology features hops graphFlag = (0, "NONE") ∨
      typology features hops graphFlag ∈ matchedRules features hops graphFlag := by
  unfold typology
  cases matchedRules features hops graphFlag with
  | nil => exact Or.inl rfl
  | cons first rest =>
      right
      dsimp only
      induction rest generalizing first with
      | nil => exact List.mem_singleton_self first
      | cons rule rest inductionHypothesis =>
          rw [List.foldl_cons]
          split
          · exact List.mem_cons_of_mem _ (inductionHypothesis rule)
          · rcases List.mem_cons.mp (inductionHypothesis first) with here | later
            · rw [here]
              exact List.mem_cons_self
            · exact List.mem_cons_of_mem _ (List.mem_cons_of_mem _ later)

/-! ## The decision -/

/-- The record is quarantined exactly if the verdict asks for it, and not without
a reason. -/
structure Agrees (verdict : Verdict) (record : CommitmentRecord) : Prop where
  status : record.status = .quarantined ↔ verdict.quarantine = true
  explained : record.status = .quarantined -> record.flagReason ≠ Json.text "NONE"

/-- Rounding does not take the novelty score across the threshold, or a rule is at
least as strong. -/
def Settled (threshold noveltyScore : PyFloat) (rule : ℚ) : Prop :=
  (PyFloat.literal rule).ge noveltyScore = true ∨
    (noveltyScore.round 4).ge threshold = noveltyScore.ge threshold

/-- A verdict is drawn from the features, the novelty score and the rule. -/
theorem verdict_of_score {P : Platform} {R : Runtime} {detector entered after : AnomalyDetector}
    {outside : Surroundings} {call : Consumer.ScoreCall} {verdict : Verdict} {features : Features}
    {graphFlag : String} {graph : SanctionsGraphClient} {noveltyScore reconError : PyFloat}
    (scored : detector.score P R outside call = (.ok verdict, after))
    (recorded : detector.recorded outside call = .ok entered)
    (extracted : extractFeatures P R entered.graph entered.velocity outside call =
      (.ok (features, graphFlag), graph))
    (novel : ({ entered with graph } : AnomalyDetector).novelty R features = .ok (noveltyScore, reconError)) :
    verdict = detector.verdict call.txnId features noveltyScore reconError
      (typology features (AnomalyDetector.hopsOf features) graphFlag) := by
  unfold AnomalyDetector.score at scored
  rw [recorded] at scored
  dsimp only at scored
  rw [extracted] at scored
  dsimp only at scored
  rw [novel] at scored
  cases scored
  rcases bind_eq_ok_iff.mp recorded with ⟨velocity, -, same⟩
  cases same
  rfl

/-- A verdict comes out of these steps only. -/
theorem score_inversion {P : Platform} {R : Runtime} {detector after : AnomalyDetector}
    {outside : Surroundings} {call : Consumer.ScoreCall} {verdict : Verdict}
    (scored : detector.score P R outside call = (.ok verdict, after)) :
    ∃ entered features graphFlag graph noveltyScore reconError,
      detector.recorded outside call = .ok entered ∧
      extractFeatures P R entered.graph entered.velocity outside call = (.ok (features, graphFlag), graph) ∧
      ({ entered with graph } : AnomalyDetector).novelty R features = .ok (noveltyScore, reconError) := by
  unfold AnomalyDetector.score at scored
  split at scored
  · cases scored
  · next entered recorded =>
      split at scored
      · cases scored
      · next features graphFlag graph extracted =>
          dsimp only at scored
          split at scored
          · cases scored
          · next noveltyScore reconError novel =>
              exact ⟨entered, features, graphFlag, graph, noveltyScore, reconError, recorded, extracted,
                novel⟩

/-- Rounding leaves the score of a rule alone, and zero as well. -/
theorem round4_of_rule {rule : ℚ × String} (named : rule = (0, "NONE") ∨ Explains rule) :
    (PyFloat.literal rule.1).round 4 = .literal rule.1 := by
  rcases named with rfl | explains
  · refine PyFloat.round_literal (?_ : (0 : ℚ) * 10 ^ 4 = (0 : Int)) ?_ ?_
    · norm_num
    · norm_num
    · omega
  · rcases explains.multiple with ⟨n, multiple⟩
    apply PyFloat.round_literal multiple
    · rw [abs_of_pos explains.positive]
      exact explains.unit
    · omega

/-- Logarithms to a few digits, for the values that the sample asks for. -/
def sampleRuntime : Runtime where
  log1p _ := 11918 / 1000
  log2 x := if x = 30103 / 100000 then -1732 / 1000 else -445 / 100
  log10 x := if x = 2 then 30103 / 100000 else 45757 / 1000000
  exp _ := 0
  upper text := text

/-- A detector without calibration, whose network answers a half-precision number
just below the quarantine line, and without a graph. -/
def sampleDetector : AnomalyDetector where
  session := some fun _ => .ok (.finite (1966 / 131072))
  calibration := none
  velocity := .new
  benford := .new
  threshold := .finite (3 / 4)
  scored := 0
  graph := ⟨false, 0, 0⟩

def sampleSurroundings : Surroundings where
  nowNs := 0
  now := 0
  answer _ _ := .failed

/-- The request that the ingest loop makes of it. -/
def sampleRequest : TypedCall :=
  ⟨{ sampleCall with anomalyScore := .float (.finite (3 / 4)), noveltyScore := .float (.finite (3 / 4)) },
    ⟨⟨_, _, _, rfl, rfl, rfl⟩, rfl⟩⟩

end Intent
end ZeroAudit
