import Mathlib.Data.List.AList
import ZeroAudit.Prover.Consumer

namespace ZeroAudit
namespace Intent

open Foundation

/-!
# The intent engine (`verifier/anomaly_detector.py`, `verifier/sanctions_graph.py`)

Scoring a transaction first enters it into two sliding windows, then extracts
ten features, then asks the autoencoder, or a weighted sum where there is none,
for a novelty score, and last matches the features against fixed rules.  Every
step after the first may raise, and the windows keep what was entered.

The mathematical functions, the trained network and the answers of the graph
database come from outside.  The features are exact rationals, and so is what is
computed from them; the decimals of the rules are the doubles next to them.
-/

variable (P : Platform)

/-- The mathematical functions and the letter case of the runtime. -/
structure Runtime where
  log1p : ℚ -> ℚ
  log2 : ℚ -> ℚ
  log10 : ℚ -> ℚ
  exp : ℚ -> ℚ
  upper : PyStr -> PyStr

variable (R : Runtime)

/-! ## Benford's law -/

/-- `BENFORD_P[digit]`. -/
def BENFORD_P (digit : Nat) : ℚ := R.log10 (1 + 1 / digit)

def MAX_SURPRISAL : ℚ := -R.log2 (BENFORD_P R 9)

/-- `int(str(amount)[0])` of a positive amount, zero for any other. -/
def leadingDigit (amountCents : Int) : Nat :=
  if amountCents ≤ 0 then 0
  else
    match Nat.toDigits 10 amountCents.toNat with
    | [] => 0
    | first :: _ => first.toNat - 48

/-- `round(x, 6)`. -/
def round6 (x : ℚ) : ℚ := Binary64.roundHalfEven (x * 10 ^ 6) / 10 ^ 6

def benfordSurprisal (amountCents : Int) : ℚ :=
  let digit := leadingDigit amountCents
  if digit = 0 then 1 / 2
  else round6 (min (-R.log2 (BENFORD_P R digit) / MAX_SURPRISAL R) 1)

/-- A table of counts by digit. -/
abbrev DigitCounts := AList fun _ : Nat => Nat

namespace DigitCounts

/-- `counts.get(digit, 0)`. -/
def of (counts : DigitCounts) (digit : Nat) : Nat := (counts.lookup digit).getD 0

/-- `sum(counts.values())`. -/
def total (counts : DigitCounts) : Nat := (counts.entries.map Sigma.snd).sum

end DigitCounts

/-- `range(1, 10)`. -/
def digits : List Nat := List.range' 1 9

/-- The statistic of Pearson for counts and the frequencies that are expected. -/
def pearson (frequency : Nat -> ℚ) (counts : DigitCounts) : ℚ :=
  (digits.map fun digit =>
    let expected := frequency digit * counts.total
    (counts.of digit - expected) ^ 2 / expected).sum

structure ChiSquared where
  chi2 : ℚ
  n : Nat
  suspicious : Bool
  detail : Option String
  criticalValueP05 : Option ℚ
  counts : Option DigitCounts

/-- The test of `chi_squared` on a table of counts, for the frequencies that are expected. -/
def chiSquaredOf (frequency : Nat -> ℚ) (counts : DigitCounts) : ChiSquared :=
  if counts.total < 100 then
    { chi2 := 0
      n := counts.total
      suspicious := false
      detail := some "insufficient sample (need 100+)"
      criticalValueP05 := none
      counts := none }
  else
    let chi2 := pearson frequency counts
    { chi2 := Binary64.roundHalfEven (chi2 * 10 ^ 3) / 10 ^ 3
      n := counts.total
      suspicious := decide (15507 / 1000 < chi2)
      detail := none
      criticalValueP05 := some (15507 / 1000)
      counts := some counts }

/-- The leading digits of the last amounts. -/
structure BenfordMonitor where
  window : Nat
  digits : List Nat

namespace BenfordMonitor

def new : BenfordMonitor := { window := 2000, digits := [] }

def record (monitor : BenfordMonitor) (amountCents : Int) : BenfordMonitor :=
  let digit := leadingDigit amountCents
  if digit = 0 then monitor
  else
    let digits := monitor.digits ++ [digit]
    { monitor with digits := digits.drop (digits.length - monitor.window) }

/-- The counts of the digits in the window, each digit from one to nine with its own. -/
def counts (monitor : BenfordMonitor) : DigitCounts :=
  monitor.digits.foldl (fun counts digit => counts.insert digit (DigitCounts.of counts digit + 1))
    (Intent.digits.foldl (fun counts digit => counts.insert digit 0) ∅)

def chiSquared (monitor : BenfordMonitor) : ChiSquared := chiSquaredOf (BENFORD_P R) monitor.counts

end BenfordMonitor

/-! ## Reporting thresholds -/

def REPORTING_THRESHOLDS : List Int := [100000000, 500000000, 1000000000, 10000000000]

def STRUCTURING_BAND : ℚ := 5 / 1000

/-- How close an amount lies below a reporting threshold. -/
def thresholdProximity (amountCents : Int) : ℚ :=
  if amountCents ≤ 0 then 0
  else round6 (REPORTING_THRESHOLDS.foldl (fun best threshold =>
    let band := threshold * STRUCTURING_BAND
    if threshold - band ≤ amountCents ∧ amountCents < threshold then
      max best (1 - (threshold - amountCents) / band)
    else best) 0)

/-! ## Velocity -/

/-- The times of the last transactions of each account. -/
structure VelocityTracker where
  window : Nat
  maxAccounts : Nat
  times : List (PyStr × List ℚ)

/-- `nanoseconds / 1e9`, which converts the integer first. -/
def seconds (nanoseconds : Int) : Except PyError ℚ := do
  let _ ← PyFloat.ofInt nanoseconds
  return nanoseconds / 10 ^ 9

namespace VelocityTracker

variable (tracker : VelocityTracker)

def new : VelocityTracker := { window := 3600, maxAccounts := 50000, times := [] }

/-- The times of an account, none where it is not known. -/
def timesOf (accountHash : PyStr) : List ℚ :=
  ((tracker.times.find? fun entry => decide (entry.1 = accountHash)).map Prod.snd).getD []

/-- Replace the times of an account in its place, or append it. -/
def assign (accountHash : PyStr) (times : List ℚ) : List (PyStr × List ℚ) -> List (PyStr × List ℚ)
  | [] => [(accountHash, times)]
  | (own, old) :: rest =>
      if own = accountHash then (own, times) :: rest else (own, old) :: assign accountHash times rest

/-- Enter one transaction and drop what has left the window of its account.  Too
large a map loses the empty ones among its first thousand accounts. -/
def record (accountHash : PyStr) (timestampNs nowNs : Int) : Except PyError VelocityTracker := do
  let time ← seconds (if timestampNs = 0 then nowNs else timestampNs)
  let kept := (tracker.timesOf accountHash ++ [time]).dropWhile fun other =>
    decide (other < time - tracker.window)
  let times := assign accountHash kept tracker.times
  let times :=
    if tracker.maxAccounts < times.length then
      (times.take 1000).filter (fun entry => !entry.2.isEmpty) ++ times.drop 1000
    else times
  return { tracker with times }

/-- The transactions of an account in the trailing window. -/
def count1h (accountHash : PyStr) (asOfNs : Int) (now : ℚ) : Except PyError Nat := do
  let now ← if asOfNs = 0 then .ok now else seconds asOfNs
  return (tracker.timesOf accountHash).countP fun time => decide (now - tracker.window < time)

end VelocityTracker

/-! ## The sanctions graph -/

/-- What the database answers to a shortest-path query. -/
inductive GraphAnswer where
  | failed
  | nothing
  | reached (hops : Int)

structure SanctionsGraphClient where
  available : Bool
  queryCount : Nat
  errorCount : Nat

def MAX_HOPS : Int := 8

/-- The answer without a database. -/
def SAFE_DEFAULT : Int × String := (MAX_HOPS, "NONE")

/-- `_PROGRAM_SEVERITY.get(hops, ...)`. -/
def programSeverity (hops : Int) : String :=
  if hops = 1 then "OFAC_SANCTION_LIST"
  else if hops = 2 then "RBI_FLAG_2024"
  else if hops = 3 then "FATF_GREY_LIST"
  else if 3 < hops then "NONE"
  else "FATF_GREY_LIST"

/-- `hops_to_sanctioned`; a query that fails takes the client offline. -/
def SanctionsGraphClient.hopsToSanctioned (client : SanctionsGraphClient) (answer : GraphAnswer) :
    (Int × String) × SanctionsGraphClient :=
  if client.available then
    match answer with
    | .failed => (SAFE_DEFAULT, { client with errorCount := client.errorCount + 1, available := false })
    | .nothing => (SAFE_DEFAULT, { client with queryCount := client.queryCount + 1 })
    | .reached hops =>
        ((hops, programSeverity hops), { client with queryCount := client.queryCount + 1 })
  else (SAFE_DEFAULT, client)

/-! ## Features -/

structure Features where
  logAmount : ℚ
  hourOfDay : ℚ
  dayOfWeek : ℚ
  txnTypeEnc : ℚ
  benfordSurprisal : ℚ
  velocity1h : ℚ
  graphHops : ℚ
  isOffhours : Bool
  isWeekend : Bool
  thresholdProximity : ℚ

def LOG_AMOUNT_SCALE : ℚ := 35

def TXN_TYPE_MAP : List (String × Nat) :=
  [("RTGS", 0), ("NEFT", 1), ("WIRE_TRANSFER", 2), ("TRADE_SETTLEMENT", 3), ("INTERNAL_TRANSFER", 4),
    ("FX_CONVERSION", 5)]

/-- `TXN_TYPE_MAP.get(str(txn_type).upper(), 0)`. -/
def txnTypeCode (txnType : Json) : Nat :=
  let name := R.upper (P.str txnType)
  ((TXN_TYPE_MAP.find? fun entry => decide (PyStr.ofString entry.1 = name)).map Prod.snd).getD 0

/-- The hour and the weekday of a time in seconds, which has to lie in the years
1 to 9999. -/
def fromTimestamp (time : ℚ) : Except PyError (Int × Int) :=
  let microseconds := Binary64.roundHalfEven (time * 10 ^ 6)
  if -62135596800000000 ≤ microseconds ∧ microseconds < 253402300800000000 then
    .ok (microseconds / 3600000000 % 24, (microseconds / 86400000000 + 3) % 7)
  else .error ⟨.valueError, "year is out of range"⟩

/-- What one scoring reads from outside: the clocks, where a timestamp is zero,
and the graph database. -/
structure Surroundings where
  nowNs : Int
  now : ℚ
  answer : PyStr -> PyStr -> GraphAnswer

/-- The features of a transaction, and the flag of the graph. -/
def extractFeatures (graph : SanctionsGraphClient) (velocity : VelocityTracker) (outside : Surroundings)
    (call : Consumer.ScoreCall) : Except PyError (Features × String) × SanctionsGraphClient :=
  let dated : Except PyError (Int × Int) := do
    let time ← seconds call.timestampNs
    fromTimestamp time
  match dated with
  | .error error => (.error error, graph)
  | .ok (hour, dayOfWeek) =>
      let found := graph.hopsToSanctioned (outside.answer call.accountHash call.counterpartyHash)
      let hops := found.1.1
      let built : Except PyError (Features × String) := do
        let recent ← velocity.count1h call.accountHash call.timestampNs outside.now
        let _ ← PyFloat.ofInt (max call.amountCents 0)
        return ({ logAmount := min (R.log1p (max call.amountCents 0 : Int) / LOG_AMOUNT_SCALE) 1
                  hourOfDay := hour / 23
                  dayOfWeek := dayOfWeek / 6
                  txnTypeEnc := txnTypeCode P R call.txnType / 5
                  benfordSurprisal := Intent.benfordSurprisal R call.amountCents
                  velocity1h := min (recent / 100) 1
                  graphHops := min (hops / 8) 1
                  isOffhours := decide (hour < 6 ∨ 22 < hour)
                  isWeekend := decide (5 ≤ dayOfWeek)
                  thresholdProximity := Intent.thresholdProximity call.amountCents }, found.1.2)
      (built, found.2)

/-- One for a flag that is set. -/
def indicator (flag : Bool) : ℚ := if flag then 1 else 0

/-- `to_vector`: the order in which the network takes the features. -/
def Features.toVector (features : Features) : List ℚ :=
  [features.logAmount, features.hourOfDay, features.dayOfWeek, features.txnTypeEnc,
    features.benfordSurprisal, features.velocity1h, features.graphHops, indicator features.isOffhours,
    indicator features.isWeekend, features.thresholdProximity]

/-! ## Novelty -/

/-- `max(0.0, min(1.0, x))`, in which not-a-number counts as one. -/
def clip (x : PyFloat) : PyFloat :=
  let capped := if x.lt (.finite 1) then x else .finite 1
  if PyFloat.zero.lt capped then capped else .zero

/-- The percentiles that were measured at training time. -/
structure Calibration where
  p50 : ℚ
  p99 : ℚ

section ScoreMap

variable {K : Type*} [Field K] [LinearOrder K]

/-- The span between the percentiles, which a degenerate calibration cannot make zero. -/
def spanOf (p50 p99 : K) : K := max (p99 - p50) (1 / 10 ^ 9)

/-- Linear up to one, and tapering beyond it. -/
def joined (exp : K -> K) (norm : K) : K :=
  if norm ≤ 1 then 3 / 4 * norm else 3 / 4 + 1 / 4 * (1 - exp (-(norm - 1)))

/-- `_onnx_score` for a calibration and what the network returned. -/
def onnxScore (exp : K -> K) (p50 p99 reconError : K) : K :=
  max 0 (min 1 (joined exp ((reconError - p50) / spanOf p50 p99)))

theorem onnxScore_range [IsStrictOrderedRing K] (exp : K -> K) (p50 p99 reconError : K) :
    0 ≤ onnxScore exp p50 p99 reconError ∧ onnxScore exp p50 p99 reconError ≤ 1 :=
  ⟨le_max_left _ _, max_le zero_le_one (min_le_left _ _)⟩

end ScoreMap

/-- The score for a reconstruction error.  Of the values that are no numbers, each piece of
the map returns an infinite one on its side of the cut, and not-a-number stays what it is. -/
def calibrated (calibration : Option Calibration) (reconError : PyFloat) : PyFloat :=
  match reconError, calibration with
  | .finite own, some calibration => .finite (onnxScore R.exp calibration.p50 calibration.p99 own)
  | .finite own, none => clip (.finite (own * 50))
  | special, _ => clip special

/-- The fallback where there is no network. -/
def statisticalScore (features : Features) : PyFloat :=
  clip (.finite (max 0 (1 - features.graphHops) * (30 / 100) +
    features.benfordSurprisal * (20 / 100) +
    features.velocity1h * (20 / 100) +
    indicator features.isOffhours * (10 / 100) +
    max 0 ((features.logAmount - 55 / 100) / (45 / 100)) * (10 / 100) +
    features.thresholdProximity * (10 / 100)))

/-! ## Rules -/

/-- `flag or default`. -/
def flagOr (flag default : String) : String := if flag = "" then default else flag

/-- The rules that match, in the order of the source, with the decimals that are their scores. -/
def matchedRules (features : Features) (hops : Int) (graphFlag : String) : List (ℚ × String) :=
  let near :=
    if hops ≤ 1 then [(95 / 100, flagOr graphFlag "OFAC_SANCTION_LIST")]
    else if hops = 2 then [(85 / 100, flagOr graphFlag "RBI_FLAG_2024")]
    else if hops = 3 then [(70 / 100, flagOr graphFlag "FATF_GREY_LIST")]
    else []
  let structuring :=
    if 90 / 100 < features.thresholdProximity then [(90 / 100, "STRUCTURING_PATTERN")] else []
  let velocityPerHour := features.velocity1h * 100
  let spike :=
    if 20 ≤ velocityPerHour then [(92 / 100, "VELOCITY_SPIKE")]
    else if 12 ≤ velocityPerHour then [(80 / 100, "VELOCITY_SPIKE")]
    else []
  let benford :=
    if 99 / 100 ≤ features.benfordSurprisal ∧ 55 / 100 < features.logAmount then
      [(62 / 100, "BENFORD_VIOLATION")]
    else []
  let offhours :=
    if features.isOffhours = true ∧ 60 / 100 < features.logAmount then
      [(60 / 100, "OFFHOURS_HIGH_VALUE")]
    else []
  near ++ structuring ++ spike ++ benford ++ offhours

/-- The first of the strongest rules, and score zero where none matches. -/
def typology (features : Features) (hops : Int) (graphFlag : String) : ℚ × String :=
  match matchedRules features hops graphFlag with
  | [] => (0, "NONE")
  | first :: rest => rest.foldl (fun best rule => if best.1 < rule.1 then rule else best) first

/-- The reason for a score that no rule explains. -/
def noveltyReason (threshold score : PyFloat) : String :=
  if score.ge (.literal (90 / 100)) then "CRITICAL_NOVELTY"
  else if score.ge threshold then "HIGH_NOVELTY_SCORE"
  else "NONE"

/-! ## Scoring -/

structure AnomalyDetector where
  /-- The trained network, where one could be loaded. -/
  session : Option (List ℚ -> Except PyError PyFloat)
  calibration : Option Calibration
  velocity : VelocityTracker
  benford : BenfordMonitor
  threshold : PyFloat
  scored : Nat
  /-- The client of the graph database, shared by the process. -/
  graph : SanctionsGraphClient

structure BehavioralDelta where
  isOffhours : Bool
  isWeekend : Bool
  velocity1h : Int

structure Verdict where
  txnId : Json
  anomalyScore : PyFloat
  noveltyScore : PyFloat
  typologyScore : PyFloat
  reconstructionLoss : PyFloat
  benfordSurprisal : ℚ
  thresholdProximity : ℚ
  graphHopsToBlacklist : Int
  flagReason : String
  quarantine : Bool
  backend : String
  features : Features
  behavioralDelta : BehavioralDelta

namespace AnomalyDetector

variable (detector : AnomalyDetector)

def backend : String := if detector.session.isSome then "onnx-fp16" else "statistical-fallback"

/-- The novelty score, and the reconstruction error. -/
def novelty (features : Features) : Except PyError (PyFloat × PyFloat) :=
  match detector.session with
  | some session => do
      let reconError ← session features.toVector
      return (calibrated R detector.calibration reconError, reconError)
  | none =>
      let score := statisticalScore features
      let loss : PyFloat := match score with
        | .finite own => .finite (round6 (own * (1 / 10)))
        | special => special
      return (score, loss)

/-- `max(first, second)`: the first, unless the second is greater. -/
def strongest (first second : PyFloat) : PyFloat := if first.lt second then second else first

/-- The hops as they are read back from their feature. -/
def hopsOf (features : Features) : Int := Binary64.roundHalfEven (features.graphHops * 8)

/-- What is made of the features, the novelty score and the matched rule. -/
def verdict (txnId : Json) (features : Features) (noveltyScore reconError : PyFloat)
    (rule : ℚ × String) : Verdict :=
  let score := strongest noveltyScore (.literal rule.1)
  { txnId
    anomalyScore := score.round 4
    noveltyScore := noveltyScore.round 4
    typologyScore := (PyFloat.literal rule.1).round 4
    reconstructionLoss := reconError.round 6
    benfordSurprisal := features.benfordSurprisal
    thresholdProximity := features.thresholdProximity
    graphHopsToBlacklist := hopsOf features
    flagReason := if 0 < rule.1 then rule.2 else noveltyReason detector.threshold noveltyScore
    quarantine := score.ge detector.threshold
    backend := detector.backend
    features
    behavioralDelta :=
      { isOffhours := features.isOffhours
        isWeekend := features.isWeekend
        velocity1h := Binary64.roundHalfEven (features.velocity1h * 100) } }

/-- Enter a transaction into the two windows. -/
def recorded (outside : Surroundings) (call : Consumer.ScoreCall) : Except PyError AnomalyDetector := do
  let velocity ← detector.velocity.record call.accountHash call.timestampNs outside.nowNs
  return { detector with velocity, benford := detector.benford.record call.amountCents }

/-- `score`: the windows are written first, and keep what they were given also
where a later step raises. -/
def score (outside : Surroundings) (call : Consumer.ScoreCall) :
    Except PyError Verdict × AnomalyDetector :=
  match detector.recorded outside call with
  | .error error => (.error error, detector)
  | .ok entered =>
      match extractFeatures P R entered.graph entered.velocity outside call with
      | (.error error, graph) => (.error error, { entered with graph })
      | (.ok (features, graphFlag), graph) =>
          let looked := { entered with graph }
          match looked.novelty R features with
          | .error error => (.error error, looked)
          | .ok (noveltyScore, reconError) =>
              let rule := typology features (hopsOf features) graphFlag
              (.ok (looked.verdict call.txnId features noveltyScore reconError rule),
                { looked with scored := looked.scored + 1 })

end AnomalyDetector

/-- The entries of a verdict that the ingest loop reads. -/
def Verdict.forConsumer (verdict : Verdict) : Consumer.Verdict :=
  { anomalyScore := verdict.anomalyScore
    flagReason := Json.text verdict.flagReason
    noveltyScore := some verdict.noveltyScore
    typologyScore := some verdict.typologyScore }

end Intent
end ZeroAudit
