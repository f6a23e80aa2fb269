import ZeroAudit.Foundation.Tally
import ZeroAudit.Training.Dataset

namespace ZeroAudit
namespace Training

open Foundation Intent Screening Simulator

/-!
# The evaluation (`ml/evaluate.py`)

The engine scores a stream in the order of its times.  What it scores are the rows that the
training would take from the same stream, and a burst is caught if the greatest score of its
account is.
-/

/-! ## The loop -/

/-- `d[key]`, which is a text. -/
def requireText (txn : Dict) (key : String) : Except PyError PyStr := do
  match ← Dict.require txn key with
  | .str value => return value
  | _ => .error ⟨.typeError, key⟩

/-- What the loop of `main` keeps: the engine, the scores, each result of an anomaly with its
type and its account, and the numbers of the attribution. -/
structure Evaluation where
  detector : AnomalyDetector
  normal : List PyFloat
  anomalous : List PyFloat
  byType : List (PyStr × PyStr × Verdict)
  typology : Nat
  novelty : Nat

variable (P : Platform) (R : Runtime)

/-- One transaction of the stream. -/
def Evaluation.append (evaluation : Evaluation) (input : Surroundings × Dict) : Except PyError Evaluation := do
  let call ← callOf P input.2
  let scored := evaluation.detector.score P R input.1 call
  let result ← scored.1
  if (Dict.get input.2 "ground_truth_anomaly" .null).truthy then
    let account ← requireText input.2 "account_id"
    let kind ← requireText input.2 "ground_truth_type"
    let typology := result.typologyScore.ge result.noveltyScore
    return { evaluation with
      detector := scored.2
      anomalous := evaluation.anomalous ++ [result.anomalyScore]
      byType := evaluation.byType ++ [(kind, account, result)]
      typology := if typology then evaluation.typology + 1 else evaluation.typology
      novelty := if typology then evaluation.novelty else evaluation.novelty + 1 }
  else return { evaluation with detector := scored.2, normal := evaluation.normal ++ [result.anomalyScore] }

/-- The stream through the engine. -/
def evaluate (detector : AnomalyDetector) (outside : Nat -> Surroundings) (draws : Nat -> NormalDraw)
    (incidents : Nat -> Incident) (nSamples : Int) (anomalyRate : ℚ) : Except PyError Evaluation := do
  let stream ← buildStream draws incidents nSamples anomalyRate
  (replayed outside stream).foldlM (fun evaluation input => evaluation.append P R input)
    (⟨detector, [], [], [], 0, 0⟩ : Evaluation)

/-- The scores of the bursts, by their accounts. -/
def Evaluation.bursts (evaluation : Evaluation) : List (PyStr × List PyFloat) :=
  Tally.group ((evaluation.byType.filter fun result => decide (result.1 = PyStr.ofString "velocity_burst")).map
    fun result => (result.2.1, result.2.2.anomalyScore))

/-- `max(scores)`; no account is without one. -/
def maxScore : List PyFloat -> PyFloat
  | [] => .nan
  | first :: rest => rest.foldl AnomalyDetector.strongest first

/-- The accounts whose bursts are flagged. -/
def Evaluation.caught (evaluation : Evaluation) : List PyStr :=
  (evaluation.bursts.filter fun burst => (maxScore burst.2).ge (.finite (75 / 100))).map Prod.fst

/-! ## The score of a row -/

/-- The score that an engine gives to features, on which nothing else bears. -/
def scoreOf (detector : AnomalyDetector) (features : Features) : Except PyError PyFloat := do
  let (noveltyScore, _) ← detector.novelty R features
  let rule := typology features (AnomalyDetector.hopsOf features) ""
  return (AnomalyDetector.strongest noveltyScore (.literal rule.1)).round 4

variable {P R}

theorem scoreOf_of_same {detector other : AnomalyDetector} (session : other.session = detector.session)
    (calibration : other.calibration = detector.calibration) (features : Features) :
    scoreOf R other features = scoreOf R detector features := by
  unfold scoreOf AnomalyDetector.novelty
  rw [session, calibration]

/-- The rules score alike, whatever the graph calls its flag. -/
theorem typology_flag (features : Features) (hops : Int) (flag other : String) :
    (typology features hops flag).1 = (typology features hops other).1 := by
  have risk : AsRisky features features := ⟨le_rfl, le_rfl, le_rfl, le_rfl, id, le_rfl⟩
  exact le_antisymm (typology_mono risk le_rfl flag other) (typology_mono risk le_rfl other flag)

/-- Twelve transactions in an hour have their score from the rules. -/
theorem scoreOf_of_spike {detector : AnomalyDetector} {features : Features} (fast : 12 ≤ features.velocity1h * 100)
    {score : PyFloat} (scored : scoreOf R detector features = .ok score) : score.ge (.literal (80 / 100)) = true := by
  rcases bind_eq_ok_iff.mp scored with ⟨⟨noveltyScore, reconError⟩, novel, same⟩
  cases same
  rcases novelty_range novel with ⟨own, rfl, -, -⟩
  have strong : 80 / 100 ≤ (typology features (AnomalyDetector.hopsOf features) "").1 := by
    have rules := typology_spec features (AnomalyDetector.hopsOf features) ""
    by_cases faster : 20 ≤ features.velocity1h * 100
    · have rule := rules _ (mem_matchedRules_iff.mpr (.burst faster))
      exact le_trans (by norm_num) rule
    · exact rules _ (mem_matchedRules_iff.mpr (.spike faster fast))
  have spike : (PyFloat.literal (80 / 100)).round 4 = .literal (80 / 100) := by
    have places : (80 / 100 : ℚ) * 10 ^ 4 = (8000 : Int) := by norm_num
    exact PyFloat.round_literal places (by norm_num) (by omega)
  rw [PyFloat.literal, strongest_finite, ← spike]
  exact PyFloat.round_mono ((Binary64.nearest_mono strong).trans (le_max_right _ _)) 4

/-- The engine scores a transaction by its features, with a client and a tracker that have
the same state as those of the extraction. -/
theorem score_of_extracted {detector : AnomalyDetector} (answers : Answers detector.session)
    {outside : Surroundings} {call : Consumer.ScoreCall} {entered : VelocityTracker} {features : Features}
    {graphFlag : String} {looked : SanctionsGraphClient}
    (recorded : detector.velocity.record call.accountHash call.timestampNs outside.nowNs = .ok entered)
    (extracted : extractFeatures P R detector.graph entered outside call = (.ok (features, graphFlag), looked)) :
    ∃ verdict after, detector.score P R outside call = (.ok verdict, after) ∧ after.graph = looked ∧
      after.velocity = entered ∧ after.session = detector.session ∧ after.calibration = detector.calibration ∧
      scoreOf R detector features = .ok verdict.anomalyScore := by
  let entry : AnomalyDetector :=
    { detector with velocity := entered, benford := detector.benford.record call.amountCents }
  have entries : detector.recorded outside call = .ok entry := by
    unfold AnomalyDetector.recorded
    rw [recorded]
    rfl
  let looking : AnomalyDetector := { entry with graph := looked }
  have reached : ∃ result, looking.novelty R features = .ok result := novelty_of_answers answers features
  rcases reached with ⟨⟨noveltyScore, reconError⟩, novel⟩
  have own : detector.novelty R features = .ok (noveltyScore, reconError) := novel
  refine ⟨looking.verdict call.txnId features noveltyScore reconError
    (typology features (AnomalyDetector.hopsOf features) graphFlag), { looking with scored := looking.scored + 1 },
    ?_, rfl, rfl, rfl, rfl, ?_⟩
  · unfold AnomalyDetector.score
    rw [entries]
    dsimp only
    rw [extracted]
    dsimp only
    rw [novel]
  · unfold scoreOf
    rw [own]
    dsimp only [bind, Except.bind]
    rw [typology_flag features (AnomalyDetector.hopsOf features) "" graphFlag]
    rfl

/-! ## The run -/

theorem requireText_of_find {txn : Dict} {key text : String} (found : Dict.find txn key = some (Json.text text)) :
    requireText txn key = .ok (PyStr.ofString text) := by
  unfold requireText
  rw [Dict.require_eq_ok_iff.mpr found]
  rfl

/-- The result of an anomaly: its type, its account and the score of its features. -/
structure Reports (R : Runtime) (detector : AnomalyDetector) (entry : Event × Features)
    (result : PyStr × PyStr × Verdict) : Prop where
  kind : result.1 = PyStr.ofString entry.1.kind
  account : result.2.1 = PyStr.ofString entry.1.body.account
  scored : scoreOf R detector entry.2 = .ok result.2.2.anomalyScore

/-- The anomalies of a stream with their features. -/
def anomalies (stream : List Event) (features : List Features) : List (Event × Features) :=
  (stream.zip features).filter fun entry => decide (entry.1.anomalous = true)

/-- What the loop has added for a stream with these features. -/
structure Adds (R : Runtime) (detector : AnomalyDetector) (stream : List Event) (features : List Features)
    (before after : Evaluation) : Prop where
  normal : ∃ scores, after.normal = before.normal ++ scores ∧
    List.Forall₂ (fun own score => scoreOf R detector own = .ok score) (labelled false stream features) scores
  reported : ∃ results, after.byType = before.byType ++ results ∧
    after.anomalous = before.anomalous ++ results.map (fun result => result.2.2.anomalyScore) ∧
    after.typology + after.novelty = before.typology + before.novelty + results.length ∧
    List.Forall₂ (Reports R detector) (anomalies stream features) results

theorem adds_nil {detector : AnomalyDetector} (evaluation : Evaluation) :
    Adds R detector [] [] evaluation evaluation where
  normal := ⟨[], (List.append_nil _).symm, .nil⟩
  reported := ⟨[], (List.append_nil _).symm, (List.append_nil _).symm, rfl, .nil⟩

theorem anomalies_cons (event : Event) (stream : List Event) (own : Features) (features : List Features) :
    anomalies (event :: stream) (own :: features) =
      (if event.anomalous = true then [(event, own)] else []) ++ anomalies stream features := by
  unfold anomalies
  rw [List.zip_cons_cons, List.filter_cons]
  by_cases same : event.anomalous = true
  · simp [same]
  · simp [same]

/-- The additions of one transaction and of those after it. -/
theorem Adds.cons {detector : AnomalyDetector} {event : Event} {own : Features} {stream : List Event}
    {features : List Features} {before middle after : Evaluation} (first : Adds R detector [event] [own] before middle)
    (rest : Adds R detector stream features middle after) :
    Adds R detector (event :: stream) (own :: features) before after := by
  rcases first.normal with ⟨scores, kept, scored⟩
  rcases rest.normal with ⟨scores', kept', scored'⟩
  rcases first.reported with ⟨results, typed, listed, counted, reports⟩
  rcases rest.reported with ⟨results', typed', listed', counted', reports'⟩
  constructor
  · refine ⟨scores ++ scores', ?_, ?_⟩
    · rw [kept', kept, List.append_assoc]
    · have split : labelled false (event :: stream) (own :: features) =
          labelled false [event] [own] ++ labelled false stream features := by
        rw [labelled_cons, labelled_cons, List.append_assoc]
        rfl
      rw [split]
      exact List.rel_append scored scored'
  · refine ⟨results ++ results', ?_, ?_, ?_, ?_⟩
    · rw [typed', typed, List.append_assoc]
    · rw [listed', listed, List.map_append, List.append_assoc]
    · rw [List.length_append]
      omega
    · have split : anomalies (event :: stream) (own :: features) =
          anomalies [event] [own] ++ anomalies stream features := by
        rw [anomalies_cons, anomalies_cons, List.append_assoc]
        rfl
      rw [split]
      exact List.rel_append reports reports'

/-- A transaction with these features is scored and kept by its label. -/
theorem append_event {detector : AnomalyDetector} (answers : Answers detector.session) {evaluation : Evaluation}
    (session : evaluation.detector.session = detector.session)
    (calibration : evaluation.detector.calibration = detector.calibration)
    {input : Surroundings × Event} {entered : VelocityTracker} {features : Features} {graphFlag : String}
    {looked : SanctionsGraphClient}
    (recorded : evaluation.detector.velocity.record (accountHash P input.2.body.account) input.2.body.timestampNs
      input.1.nowNs = .ok entered)
    (extracted : extractFeatures P R evaluation.detector.graph entered input.1 (input.2.body.scoreCall P) =
      (.ok (features, graphFlag), looked)) :
    ∃ after, evaluation.append P R (delivered input) = .ok after ∧ after.detector.graph = looked ∧
      after.detector.velocity = entered ∧ after.detector.session = detector.session ∧
      after.detector.calibration = detector.calibration ∧ Adds R detector [input.2] [features] evaluation after := by
  rw [← session] at answers
  let call := input.2.body.scoreCall P
  have entry : evaluation.detector.velocity.record call.accountHash call.timestampNs input.1.nowNs = .ok entered :=
    recorded
  rcases score_of_extracted answers entry extracted with
    ⟨verdict, engine, answered, graph, velocity, same, alike, scored⟩
  rw [scoreOf_of_same session calibration] at scored
  unfold Evaluation.append delivered
  rw [callOf_event, truthy_label, requireText_of_find input.2.carries.account,
    requireText_of_find input.2.labelled]
  dsimp only [bind, Except.bind]
  rw [answered]
  cases label : input.2.anomalous with
  | false =>
      refine ⟨_, rfl, graph, velocity, same.trans session, alike.trans calibration, ?_, ?_⟩
      · refine ⟨[verdict.anomalyScore], rfl, ?_⟩
        simpa [labelled, label] using scored
      · refine ⟨[], (List.append_nil _).symm, (List.append_nil _).symm, rfl, ?_⟩
        simp [anomalies, label]
  | true =>
      refine ⟨_, rfl, graph, velocity, same.trans session, alike.trans calibration, ?_, ?_⟩
      · refine ⟨[], (List.append_nil _).symm, ?_⟩
        simp [labelled, label]
      · refine ⟨[(PyStr.ofString input.2.kind, PyStr.ofString input.2.body.account, verdict)], rfl, rfl, ?_, ?_⟩
        · dsimp only [List.length_singleton]
          split <;> omega
        · have own : Reports R detector (input.2, features)
              (PyStr.ofString input.2.kind, PyStr.ofString input.2.body.account, verdict) := ⟨rfl, rfl, scored⟩
          simpa [anomalies, label] using own

/-- A stream with features is scored to its end. -/
theorem append_evaluated {detector : AnomalyDetector} (answers : Answers detector.session)
    {graph : SanctionsGraphClient} {tracker : VelocityTracker} {inputs : List (Surroundings × Event)}
    {features : List Features} (featured : Featured P R graph tracker inputs features) {evaluation : Evaluation}
    (looks : evaluation.detector.graph = graph) (counts : evaluation.detector.velocity = tracker)
    (session : evaluation.detector.session = detector.session)
    (calibration : evaluation.detector.calibration = detector.calibration) :
    ∃ after, (inputs.map delivered).foldlM (fun evaluation input => Evaluation.append P R evaluation input)
        evaluation = .ok after ∧
      Adds R detector (inputs.map Prod.snd) features evaluation after := by
  induction featured generalizing evaluation with
  | nil => exact ⟨evaluation, rfl, adds_nil evaluation⟩
  | @cons graph looked tracker entered input own graphFlag inputs rest recorded extracted _ inductionHypothesis =>
      subst looks counts
      rcases append_event answers session calibration recorded extracted with
        ⟨middle, appended, graph, velocity, session, calibration, first⟩
      rcases inductionHypothesis graph velocity session calibration with ⟨after, folded, later⟩
      refine ⟨after, ?_, first.cons later⟩
      rw [List.map_cons, List.foldlM_cons, appended]
      exact folded

theorem scoreOf_finite {detector : AnomalyDetector} {features : Features} {score : PyFloat}
    (scored : scoreOf R detector features = .ok score) : ∃ own, score = .finite own := by
  rcases bind_eq_ok_iff.mp scored with ⟨⟨noveltyScore, reconError⟩, novel, same⟩
  cases same
  rcases novelty_range novel with ⟨own, rfl, -, -⟩
  rw [PyFloat.literal, strongest_finite]
  exact ⟨_, rfl⟩

/-- The greatest of finite scores reaches what one of them does. -/
theorem maxScore_reaches {scores : List PyFloat} (finite : ∀ score ∈ scores, ∃ own, score = .finite own) {line : ℚ}
    (reached : ∃ score ∈ scores, score.ge (.finite line) = true) : (maxScore scores).ge (.finite line) = true := by
  cases scores with
  | nil =>
      rcases reached with ⟨score, member, -⟩
      cases member
  | cons first rest =>
      rw [maxScore]
      induction rest generalizing first with
      | nil =>
          rcases reached with ⟨score, member, reaches⟩
          rwa [List.mem_singleton.mp member] at reaches
      | cons next rest inductionHypothesis =>
          rcases finite first List.mem_cons_self with ⟨x, rfl⟩
          rcases finite next (List.mem_cons_of_mem _ List.mem_cons_self) with ⟨y, rfl⟩
          rw [List.foldl_cons, strongest_finite]
          apply inductionHypothesis
          · intro score member
            rcases List.mem_cons.mp member with rfl | later
            · exact ⟨_, rfl⟩
            · exact finite score (List.mem_cons_of_mem _ (List.mem_cons_of_mem _ later))
          · rcases reached with ⟨score, member, reaches⟩
            rcases List.mem_cons.mp member with rfl | later
            · exact ⟨_, List.mem_cons_self, ge_of_le (le_max_left x y) reaches⟩
            · rcases List.mem_cons.mp later with rfl | later
              · exact ⟨_, List.mem_cons_self, ge_of_le (le_max_right x y) reaches⟩
              · exact ⟨score, List.mem_cons_of_mem _ later, reaches⟩

/-- An account with a burst transaction that has its score from the rules is caught. -/
theorem mem_caught {detector : AnomalyDetector} {evaluation : Evaluation} {entries : List (Event × Features)}
    (reports : List.Forall₂ (Reports R detector) entries evaluation.byType) {event : Event} {own : Features}
    (member : (event, own) ∈ entries) (burst : event.kind = "velocity_burst")
    (fast : 12 ≤ own.velocity1h * 100) : PyStr.ofString event.body.account ∈ evaluation.caught := by
  rcases exists_of_forall₂ reports with ⟨forward, backward⟩
  rcases forward _ member with ⟨result, reported, report⟩
  let entries := (evaluation.byType.filter fun result => decide (result.1 = PyStr.ofString "velocity_burst")).map
    fun result => (result.2.1, result.2.2.anomalyScore)
  have kept : (PyStr.ofString event.body.account, result.2.2.anomalyScore) ∈ entries := by
    refine List.mem_map.mpr ⟨result, List.mem_filter.mpr ⟨reported, ?_⟩, ?_⟩
    · rw [decide_eq_true_iff, report.kind, burst]
    · rw [report.account]
  have group : (PyStr.ofString event.body.account, Tally.valuesOf (PyStr.ofString event.body.account) entries) ∈
      evaluation.bursts := by
    apply Retention.mem_of_lookup
    refine (Tally.lookup_group _ entries).trans (if_pos ?_)
    exact List.mem_map_of_mem (f := Prod.fst) kept
  have finite : ∀ score ∈ Tally.valuesOf (PyStr.ofString event.body.account) entries, ∃ own, score = .finite own := by
    intro score among
    rcases List.mem_map.mp among with ⟨entry, found, rfl⟩
    rcases List.mem_map.mp (List.mem_filter.mp found).1 with ⟨other, listed, rfl⟩
    rcases backward other (List.mem_filter.mp listed).1 with ⟨_, -, report⟩
    exact scoreOf_finite report.scored
  have line : (PyFloat.literal (80 / 100)).ge (.finite (75 / 100)) = true := by decide +kernel
  have reached := maxScore_reaches finite
    ⟨_, Tally.mem_valuesOf kept, ge_trans (scoreOf_of_spike fast report.scored) line⟩
  exact List.mem_map.mpr ⟨_, List.mem_filter.mpr ⟨group, reached⟩, rfl⟩

/-- No account is counted twice. -/
theorem nodup_caught (evaluation : Evaluation) : evaluation.caught.Nodup := by
  have kept : evaluation.caught.Sublist (evaluation.bursts.map Prod.fst) := List.filter_sublist.map Prod.fst
  exact kept.nodup (Tally.nodup_group _)

/-! ## The evaluation -/

/-- An engine that has seen nothing yet scores exactly the rows that the training would take
from the same draws, each by its features alone.  Every anomaly is attributed once, and every
burst of twelve transactions or more is caught, whose account is counted once. -/
theorem evaluated_as_trained (P : Platform) (R : Runtime) (cast : ℚ -> ℚ) {detector : AnomalyDetector}
    (answers : Answers detector.session) (fresh : detector.velocity = .new) (outside : Nat -> Surroundings)
    (draws : Nat -> NormalDraw) (incidents : Nat -> Incident) (nSamples : Int) (anomalyRate : ℚ) :
    ∃ passes stream features evaluation, Streamed draws incidents nSamples anomalyRate passes stream ∧
      buildDataset P R cast detector.graph outside draws incidents nSamples anomalyRate =
        .ok ((labelled false stream features).map fun own => own.toVector.map cast,
          (labelled true stream features).map fun own => own.toVector.map cast) ∧
      evaluate P R detector outside draws incidents nSamples anomalyRate = .ok evaluation ∧
      List.Forall₂ (fun own score => scoreOf R detector own = .ok score) (labelled false stream features)
        evaluation.normal ∧
      List.Forall₂ (fun own score => scoreOf R detector own = .ok score) (labelled true stream features)
        evaluation.anomalous ∧
      evaluation.normal.length = normalCount nSamples anomalyRate ∧
      evaluation.typology + evaluation.novelty = evaluation.anomalous.length ∧ evaluation.caught.Nodup ∧
      ∀ pass < passes, (incidents pass).twist.name = "velocity_burst" -> 12 ≤ (incidents pass).size ->
        PyStr.ofString (incidents pass).account ∈ evaluation.caught := by
  rcases featured_stream P R detector.graph outside draws incidents nSamples anomalyRate with
    ⟨passes, stream, features, built, streamed, featured, length, exact⟩
  let start : Evaluation := ⟨detector, [], [], [], 0, 0⟩
  have looks : start.detector.graph = detector.graph := rfl
  rcases append_evaluated answers featured looks fresh rfl rfl with ⟨evaluation, folded, adds⟩
  rw [events_replayed] at adds
  rcases adds.normal with ⟨scores, normal, scored⟩
  rcases adds.reported with ⟨results, typed, listed, counted, reports⟩
  rw [List.nil_append] at normal typed listed
  rw [← typed] at reports listed
  refine ⟨passes, stream, features, evaluation, streamed, buildDataset_of_featured built featured cast, ?_, ?_, ?_, ?_,
    ?_, nodup_caught evaluation, ?_⟩
  · unfold evaluate
    rw [built]
    dsimp only [bind, Except.bind]
    rw [replayed_map]
    exact folded
  · rw [normal]
    exact scored
  · rw [listed, labelled, List.forall₂_map_left_iff, List.forall₂_map_right_iff]
    exact reports.imp fun _ _ report => report.scored
  · rw [normal, ← scored.length_eq]
    exact (length_labelled_of_streamed streamed length).1
  · rw [listed, List.length_map, typed, counted]
    exact Nat.zero_add _
  · intro pass made burst many
    rcases exists_whole_burst P streamed made burst with
      ⟨before, event, later, split, anomaly, kind, account, whole⟩
    rcases exact before event later split with ⟨own, found, velocity⟩
    have member : (event, own) ∈ anomalies stream features := by
      rw [split]
      exact List.mem_filter.mpr ⟨mem_zip found, decide_eq_true anomaly⟩
    have fast : 12 ≤ own.velocity1h * 100 := by
      have twelve : (12 : ℚ) ≤ hourly P before event := by exact_mod_cast many.trans whole
      rw [velocity]
      have least : (12 / 100 : ℚ) ≤ min ((hourly P before event : ℚ) / 100) 1 := by
        apply le_min
        · linarith
        · norm_num
      linarith
    rw [← account]
    exact mem_caught reports member kind fast

/-- A burst of twelve transactions, a minute apart and further each time. -/
def sampleIncident : Incident where
  draw := sampleDraw
  uuid := "fedcba9876543210"
  twist := .velocityBurst (Fin.last 5)
  size := 12
  many := by decide
  leg _ := ⟨sampleDraw, "0123456789abcdef", 60, by decide⟩

theorem evaluated_as_trained_sample :
    ∃ evaluation, evaluate samplePlatform sampleRuntime Intent.sampleDetector (fun _ => Intent.sampleSurroundings)
        (fun _ => sampleDraw) (fun _ => sampleIncident) 20 (1 / 4) = .ok evaluation ∧
      evaluation.normal.length = 15 ∧ PyStr.ofString sampleIncident.account ∈ evaluation.caught := by
  have count : anomalyCount 20 (1 / 4) = 5 := by decide +kernel
  have answers : Answers Intent.sampleDetector.session := by
    rintro own ⟨⟩ vector
    exact ⟨_, rfl⟩
  rcases evaluated_as_trained samplePlatform sampleRuntime id answers rfl (fun _ => Intent.sampleSurroundings)
    (fun _ => sampleDraw) (fun _ => sampleIncident) 20 (1 / 4) with
    ⟨passes, stream, features, evaluation, streamed, -, ran, -, -, normal, -, -, caught⟩
  have some : 0 < passes := by
    apply Nat.pos_of_ne_zero
    rintro rfl
    have enough := streamed.enough
    rw [count] at enough
    exact absurd enough (by decide)
  refine ⟨evaluation, ran, ?_, caught 0 some rfl le_rfl⟩
  rw [normal, normalCount, count]
  rfl

end Training
end ZeroAudit
