import ZeroAudit.Simulator.Anomalies
import ZeroAudit.Training.EventStream

namespace ZeroAudit
namespace Training

open Foundation Intent Screening Simulator

/-!
# The data set (`ml/train_autoencoder.py`)

The stream is replayed through one velocity tracker, so that each row of the data set holds
the features of its transaction at its place in the stream.
-/

/-! ## The rows -/

variable (P : Platform) (R : Runtime)

/-- What the extraction of a transaction is called with. -/
def callOf (txn : Dict) : Except PyError Consumer.ScoreCall := do
  let account ← (← Dict.require txn "account_id").encode
  let counterparty ← (← Dict.require txn "counterparty_id").encode
  let timestampNs ← requireInt txn "timestamp_ns"
  let txnId ← Dict.require txn "txn_id"
  let amountCents ← requireInt txn "amount_cents"
  let txnType ← Dict.require txn "txn_type"
  return ⟨txnId, P.sha3Hex account, P.sha3Hex counterparty, amountCents, txnType, timestampNs⟩

/-- The loop of `build_dataset`: the client of the process, the tracker and the two tables. -/
structure Dataset where
  graph : SanctionsGraphClient
  tracker : VelocityTracker
  normal : List (List ℚ)
  anomalous : List (List ℚ)

/-- One transaction of the stream. -/
def Dataset.append (dataset : Dataset) (input : Surroundings × Dict) : Except PyError Dataset := do
  let call ← callOf P input.2
  let tracker ← dataset.tracker.record call.accountHash call.timestampNs input.1.nowNs
  let extracted := extractFeatures P R dataset.graph tracker input.1 call
  let (features, _) ← extracted.1
  if (Dict.get input.2 "ground_truth_anomaly" .null).truthy then
    return ⟨extracted.2, tracker, dataset.normal, dataset.anomalous ++ [features.toVector]⟩
  else return ⟨extracted.2, tracker, dataset.normal ++ [features.toVector], dataset.anomalous⟩

/-- Each transaction of a stream in its surroundings. -/
def replayed {E : Type} (outside : Nat -> Surroundings) (events : List E) : List (Surroundings × E) :=
  events.zipIdx.map fun entry => (outside entry.2, entry.1)

/-- `build_dataset`; the numbers are cast to the format of the tables. -/
def buildDataset (cast : ℚ -> ℚ) (graph : SanctionsGraphClient) (outside : Nat -> Surroundings)
    (draws : Nat -> NormalDraw) (incidents : Nat -> Incident) (nSamples : Int) (anomalyRate : ℚ) :
    Except PyError (List (List ℚ) × List (List ℚ)) := do
  let events ← buildStream draws incidents nSamples anomalyRate
  let dataset ← (replayed outside events).foldlM (fun dataset input => dataset.append P R input)
    (⟨graph, .new, [], []⟩ : Dataset)
  return (dataset.normal.map (List.map cast), dataset.anomalous.map (List.map cast))

/-! ## The features along a stream -/

variable {P R}

/-- The features of the transactions, one after the other, in a client and a tracker that
they share. -/
inductive Featured (P : Platform) (R : Runtime) :
    SanctionsGraphClient -> VelocityTracker -> List (Surroundings × Event) -> List Features -> Prop
  | nil {graph tracker} : Featured P R graph tracker [] []
  | cons {graph looked : SanctionsGraphClient} {tracker entered : VelocityTracker} {input : Surroundings × Event}
      {features : Features} {graphFlag : String} {inputs : List (Surroundings × Event)} {rest : List Features}
      (recorded : tracker.record (accountHash P input.2.body.account) input.2.body.timestampNs input.1.nowNs =
        .ok entered)
      (extracted : extractFeatures P R graph entered input.1 (input.2.body.scoreCall P) =
        (.ok (features, graphFlag), looked))
      (later : Featured P R looked entered inputs rest) :
      Featured P R graph tracker (input :: inputs) (features :: rest)

theorem callOf_event (event : Event) : callOf P event.txn = .ok (event.body.scoreCall P) := by
  have carries := event.carries
  unfold callOf
  rw [Dict.require_eq_ok_iff.mpr carries.account, Dict.require_eq_ok_iff.mpr carries.counterparty,
    Dict.require_eq_ok_iff.mpr carries.id, Dict.require_eq_ok_iff.mpr carries.txnType,
    requireInt_of_find carries.timestampNs, requireInt_of_find carries.amountCents]
  dsimp only [bind, Except.bind]
  rw [encode_text, encode_text]
  rfl

/-- The transactions of the account in the hour that ends with this one. -/
def hourly (P : Platform) (past : List Event) (event : Event) : Nat :=
  (past ++ [event]).countP fun other => decide (accountHash P other.body.account = accountHash P event.body.account ∧
    event.body.timestampNs - 3600 * 10 ^ 9 < other.body.timestampNs)

/-- The entry of a transaction into the tracker. -/
def recordCallOf (P : Platform) (input : Surroundings × Event) : RecordCall :=
  ⟨accountHash P input.2.body.account, input.2.body.timestampNs, input.1.nowNs⟩

theorem time_recordCallOf (input : Surroundings × Event) :
    (recordCallOf P input).time = .ok (input.2.body.timestampNs / 10 ^ 9) :=
  entry_of_body (P := P) input.1 input.2.body

theorem enter_recordCallOf {tracker entered : VelocityTracker} {input : Surroundings × Event}
    (recorded : tracker.record (accountHash P input.2.body.account) input.2.body.timestampNs input.1.nowNs =
      .ok entered) : (tracker.enter (recordCallOf P input)).2 = entered := by
  unfold VelocityTracker.enter recordCallOf
  dsimp only
  rw [recorded]

/-- The arrivals of an account are the times of its transactions. -/
theorem arrivals_recordCallOf (own : PyStr) (inputs : List (Surroundings × Event)) :
    arrivals own (inputs.map (recordCallOf P)) =
      ((inputs.map Prod.snd).filter fun event => decide (accountHash P event.body.account = own)).map
        fun event => (event.body.timestampNs : ℚ) / 10 ^ 9 := by
  unfold arrivals
  induction inputs with
  | nil => rfl
  | cons input rest inductionHypothesis =>
      rw [List.map_cons, List.map_cons, List.filterMap_cons, List.filter_cons, inductionHypothesis,
        time_recordCallOf]
      by_cases same : (recordCallOf P input).accountHash = own
      · have kept : decide (accountHash P input.2.body.account = own) = true := decide_eq_true same
        rw [if_pos same, if_pos kept]
        rfl
      · have dropped : ¬decide (accountHash P input.2.body.account = own) = true := by
          rw [decide_eq_true_iff]
          exact same
        rw [if_neg same, if_neg dropped]

/-- In the order of the times the tracker counts the account's last hour. -/
theorem count1h_replayed {past : List (Surroundings × Event)} {input : Surroundings × Event}
    (ordered : ∀ other ∈ past, other.2.body.timestampNs ≤ input.2.body.timestampNs) (now : ℚ) :
    (VelocityTracker.new.after ((past ++ [input]).map (recordCallOf P))).count1h
        (accountHash P input.2.body.account) input.2.body.timestampNs now =
      .ok (hourly P (past.map Prod.snd) input.2) := by
  have dated := input.2.body.dated
  have nonzero : input.2.body.timestampNs ≠ 0 := by omega
  have small := ((VelocityTracker.seconds_eq_ok_iff _ _).mp (seconds_of_body input.2.body)).1
  have before : ∀ other ∈ (past ++ [input]).map Prod.snd, other.body.timestampNs ≤ input.2.body.timestampNs := by
    intro other member
    rcases List.mem_map.mp member with ⟨entry, own, rfl⟩
    rcases List.mem_append.mp own with earlier | last
    · exact ordered entry earlier
    · rw [List.mem_singleton.mp last]
  have latest : ∀ time ∈ arrivals (accountHash P input.2.body.account) ((past ++ [input]).map (recordCallOf P)),
      time ≤ VelocityTracker.asOf input.2.body.timestampNs := by
    intro time member
    rw [arrivals_recordCallOf] at member
    rcases List.mem_map.mp member with ⟨other, kept, rfl⟩
    unfold VelocityTracker.asOf
    have ordered : (other.body.timestampNs : ℚ) ≤ input.2.body.timestampNs := by
      exact_mod_cast before other (List.mem_filter.mp kept).1
    gcongr
  refine (VelocityTracker.count1h_of_latest 3600 50000 _ _ nonzero small latest).trans ?_
  rw [arrivals_recordCallOf, VelocityTracker.recent, VelocityTracker.asOf, List.countP_map, List.countP_filter,
    List.map_append]
  refine congrArg Except.ok (List.countP_congr ?_)
  intro other member
  have earlier : (other.body.timestampNs : ℚ) ≤ input.2.body.timestampNs := by
    apply Int.cast_le.mpr
    apply before other
    rw [List.map_append]
    exact member
  have window : VelocityTracker.InWindow 3600 ((input.2.body.timestampNs : ℚ) / 10 ^ 9)
      ((other.body.timestampNs : ℚ) / 10 ^ 9) ↔
        input.2.body.timestampNs - 3600 * 10 ^ 9 < other.body.timestampNs := by
    unfold VelocityTracker.InWindow
    rw [and_iff_left (by gcongr), ← Int.cast_lt (R := ℚ)]
    push_cast
    constructor
    · intro inside
      linarith
    · intro inside
      linarith
  simp only [Function.comp_apply, Bool.and_eq_true, decide_eq_true_iff, window]
  exact and_comm

/-- A stream in the order of its times has features, each with the exact count of its hour. -/
theorem featured_replayed (P : Platform) (R : Runtime) (graph : SanctionsGraphClient)
    (past inputs : List (Surroundings × Event))
    (ordered : (past ++ inputs).Pairwise fun early late => early.2.body.timestampNs ≤ late.2.body.timestampNs) :
    ∃ features, Featured P R graph (VelocityTracker.new.after (past.map (recordCallOf P))) inputs features ∧
      features.length = inputs.length ∧
      ∀ before event later, inputs.map Prod.snd = before ++ event :: later -> ∃ own,
        features[before.length]? = some own ∧
          own.velocity1h = min ((hourly P (past.map Prod.snd ++ before) event : ℚ) / 100) 1 := by
  induction inputs generalizing past graph with
  | nil =>
      refine ⟨[], .nil, rfl, ?_⟩
      intro before event later split
      cases before <;> cases split
  | cons input inputs inductionHypothesis =>
      have earlier : ∀ other ∈ past, other.2.body.timestampNs ≤ input.2.body.timestampNs :=
        fun other member => (List.pairwise_append.mp ordered).2.2 other member input List.mem_cons_self
      have counted := count1h_replayed (P := P) earlier input.1.now
      rcases (VelocityTracker.record_ok_iff (VelocityTracker.new.after (past.map (recordCallOf P)))
        (accountHash P input.2.body.account) input.2.body.timestampNs input.1.nowNs).mpr
          ⟨_, time_recordCallOf (P := P) input⟩ with ⟨entered, recorded⟩
      have entry : VelocityTracker.new.after ((past ++ [input]).map (recordCallOf P)) = entered := by
        rw [List.map_append, List.map_singleton, VelocityTracker.after_append]
        exact enter_recordCallOf recorded
      rw [entry] at counted
      rcases extracted : extractFeatures P R graph entered input.1 (input.2.body.scoreCall P) with
        ⟨error | ⟨features, graphFlag⟩, looked⟩
      · rcases extractFeatures_of_body (P := P) (R := R) graph entered input.1 input.2.body with ⟨_, own⟩
        rw [extracted] at own
        cases own
      · rw [List.append_cons] at ordered
        rcases inductionHypothesis looked (past ++ [input]) ordered with ⟨rest, later, length, exact⟩
        rw [entry] at later
        refine ⟨features :: rest, .cons recorded extracted later, congrArg (· + 1) length, ?_⟩
        intro before event following split
        cases before with
        | nil =>
            rw [List.map_cons, List.nil_append, List.cons.injEq] at split
            rcases (features_of_extractFeatures extracted).2 with ⟨recent, own, velocity⟩
            cases counted.symm.trans own
            refine ⟨features, rfl, ?_⟩
            rw [velocity, List.append_nil, ← split.1]
        | cons first before =>
            rw [List.map_cons, List.cons_append, List.cons.injEq] at split
            rcases exact before event following split.2 with ⟨own, found, velocity⟩
            refine ⟨own, found, ?_⟩
            rw [velocity, List.map_append, List.map_singleton, List.append_assoc, ← split.1]
            rfl

/-- The features of the transactions with this label. -/
def labelled (anomalous : Bool) (stream : List Event) (features : List Features) : List Features :=
  ((stream.zip features).filter fun entry => decide (entry.1.anomalous = anomalous)).map Prod.snd

theorem labelled_cons (anomalous : Bool) (event : Event) (stream : List Event) (own : Features)
    (features : List Features) : labelled anomalous (event :: stream) (own :: features) =
      (if event.anomalous = anomalous then [own] else []) ++ labelled anomalous stream features := by
  unfold labelled
  rw [List.zip_cons_cons, List.filter_cons]
  by_cases same : event.anomalous = anomalous
  · simp [same]
  · simp [same]

theorem length_labelled (anomalous : Bool) {stream : List Event} {features : List Features}
    (length : features.length = stream.length) :
    (labelled anomalous stream features).length = stream.countP fun event => decide (event.anomalous = anomalous) := by
  induction stream generalizing features with
  | nil => rfl
  | cons event stream inductionHypothesis =>
      cases features with
      | nil => cases length
      | cons own features =>
          rw [labelled_cons, List.length_append, inductionHypothesis (Nat.succ.inj length), List.countP_cons]
          split <;> simp_all [Nat.add_comm]

theorem mem_zip {before later : List Event} {event : Event} {features : List Features} {own : Features}
    (found : features[before.length]? = some own) : (event, own) ∈ (before ++ event :: later).zip features := by
  rw [List.mem_iff_getElem?]
  refine ⟨before.length, List.getElem?_zip_eq_some.mpr ⟨?_, found⟩⟩
  rw [List.getElem?_append_right le_rfl, Nat.sub_self]
  rfl

/-- One transaction of a stream, as the loops read it. -/
def delivered (input : Surroundings × Event) : Surroundings × Dict := (input.1, input.2.txn)

theorem replayed_map (outside : Nat -> Surroundings) (stream : List Event) :
    replayed outside (stream.map Event.txn) = (replayed outside stream).map delivered := by
  unfold replayed
  rw [List.zipIdx_map, List.map_map, List.map_map]
  rfl

theorem truthy_label (event : Event) :
    (Dict.get event.txn "ground_truth_anomaly" .null).truthy = event.anomalous := by
  rw [Dict.get_of_find event.label]
  cases event.anomalous <;> rfl

/-- The loop collects the features by their labels. -/
theorem append_featured {graph : SanctionsGraphClient} {tracker : VelocityTracker}
    {inputs : List (Surroundings × Event)} {features : List Features}
    (featured : Featured P R graph tracker inputs features) (normal anomalous : List (List ℚ)) :
    ∃ looked entered, (inputs.map delivered).foldlM (fun dataset input => Dataset.append P R dataset input)
        (⟨graph, tracker, normal, anomalous⟩ : Dataset) =
      .ok ⟨looked, entered, normal ++ (labelled false (inputs.map Prod.snd) features).map Features.toVector,
        anomalous ++ (labelled true (inputs.map Prod.snd) features).map Features.toVector⟩ := by
  induction featured generalizing normal anomalous with
  | @nil graph tracker =>
      refine ⟨graph, tracker, ?_⟩
      rw [List.map_nil, List.map_nil]
      simp [labelled, pure, Except.pure]
  | @cons graph looked tracker entered input features graphFlag inputs rest recorded extracted _ inductionHypothesis =>
      have step : Dataset.append P R ⟨graph, tracker, normal, anomalous⟩ (delivered input) =
          .ok ⟨looked, entered, normal ++ if input.2.anomalous = false then [features.toVector] else [],
            anomalous ++ if input.2.anomalous = true then [features.toVector] else []⟩ := by
        have recorded : tracker.record (input.2.body.scoreCall P).accountHash (input.2.body.scoreCall P).timestampNs
            input.1.nowNs = .ok entered := recorded
        unfold Dataset.append delivered
        rw [callOf_event, truthy_label]
        dsimp only [bind, Except.bind]
        rw [recorded]
        dsimp only
        rw [extracted]
        cases input.2.anomalous <;> simp [pure, Except.pure]
      rcases inductionHypothesis (normal ++ if input.2.anomalous = false then [features.toVector] else [])
        (anomalous ++ if input.2.anomalous = true then [features.toVector] else []) with ⟨graph, tracker, folded⟩
      refine ⟨graph, tracker, ?_⟩
      rw [List.map_cons, List.foldlM_cons, step]
      refine folded.trans ?_
      rw [List.map_cons, labelled_cons, labelled_cons]
      cases input.2.anomalous <;> simp

/-! ## Bursts -/

/-- The account of a burst. -/
def Incident.account (incident : Incident) : String :=
  (anomalousBody incident.draw incident.uuid incident.twist).account

/-- The transaction could be one of the burst. -/
def Incident.Near (incident : Incident) (event : Event) : Prop :=
  event.anomalous = true ∧ event.kind = "velocity_burst" ∧ event.body.account = incident.account ∧
    diurnalTimestamp incident.draw ≤ event.body.timestampNs ∧
    event.body.timestampNs ≤ diurnalTimestamp incident.draw + 1350 * 10 ^ 9

instance (incident : Incident) (event : Event) : Decidable (incident.Near event) :=
  inferInstanceAs (Decidable (_ ∧ _))

theorem Incident.near_leg (incident : Incident) (i : Fin incident.size) : incident.Near (incident.legEvent i) := by
  have gap := (incident.leg i).range
  have place : (i.val : Int) ≤ 15 := by
    have inside := i.isLt
    have many := incident.many.2
    omega
  have least : 0 ≤ (i.val : Int) * (incident.leg i).gap := mul_nonneg (Int.natCast_nonneg _) (by omega)
  have most : (i.val : Int) * (incident.leg i).gap ≤ 15 * 90 := mul_le_mul place gap.2 (by omega) (by decide)
  have own : (incident.legEvent i).body.timestampNs =
      diurnalTimestamp incident.draw + i.val * (incident.leg i).gap * 1000000000 := rfl
  refine ⟨rfl, rfl, rfl, ?_, ?_⟩
  · rw [own]
    omega
  · rw [own]
    omega

/-- An entry that is wanted has a last one like it. -/
theorem exists_last {α : Type} {wanted : α -> Bool} {entries : List α} (present : 0 < entries.countP wanted) :
    ∃ before entry later, entries = before ++ entry :: later ∧ wanted entry = true ∧ later.countP wanted = 0 := by
  induction entries with
  | nil => cases present
  | cons first rest inductionHypothesis =>
      by_cases more : 0 < rest.countP wanted
      · rcases inductionHypothesis more with ⟨before, entry, later, split, own, last⟩
        exact ⟨first :: before, entry, later, congrArg _ split, own, last⟩
      · have none := Nat.eq_zero_of_not_pos more
        refine ⟨[], first, rest, rfl, ?_, none⟩
        rw [List.countP_cons, none, Nat.zero_add] at present
        split at present
        · assumption
        · cases present

/-- The last transaction of a burst has the whole burst in its hour. -/
theorem exists_whole_burst (P : Platform) {draws : Nat -> NormalDraw} {incidents : Nat -> Incident} {nSamples : Int}
    {anomalyRate : ℚ} {passes : Nat} {stream : List Event}
    (streamed : Streamed draws incidents nSamples anomalyRate passes stream) {pass : Nat} (made : pass < passes)
    (burst : (incidents pass).twist.name = "velocity_burst") :
    ∃ before event later, stream = before ++ event :: later ∧ event.anomalous = true ∧
      event.kind = "velocity_burst" ∧ event.body.account = (incidents pass).account ∧
      (incidents pass).size ≤ hourly P before event := by
  let near := fun event => decide ((incidents pass).Near event)
  have whole : (incidents pass).size ≤ stream.countP near := by
    have entries : (incidents pass).entries = List.ofFn (incidents pass).legEvent := if_pos burst
    have own : (incidents pass).entries.countP near = (incidents pass).size := by
      rw [entries, List.countP_eq_length.mpr, List.length_ofFn]
      intro event member
      rcases List.mem_ofFn.mp member with ⟨i, rfl⟩
      exact decide_eq_true ((incidents pass).near_leg i)
    have part : (incidents pass).entries.Sublist (entriesOf incidents 0 passes) := by
      apply List.sublist_flatten_of_mem
      exact List.mem_map_of_mem (List.mem_range'_1.mpr (by omega))
    rw [streamed.content.countP_eq, List.countP_append]
    exact (own.symm.le.trans part.countP_le).trans (Nat.le_add_left _ _)
  have present : 0 < stream.countP near :=
    lt_of_lt_of_le (by have many := (incidents pass).many.1; omega) whole
  rcases exists_last present with ⟨before, event, later, split, own, last⟩
  rcases of_decide_eq_true own with ⟨anomalous, kind, account, start, stop⟩
  refine ⟨before, event, later, split, anomalous, kind, account, whole.trans ?_⟩
  rw [split, List.append_cons, List.countP_append, last, Nat.add_zero]
  unfold hourly
  apply List.countP_mono_left
  intro other _ like
  rcases of_decide_eq_true like with ⟨-, -, same, since, -⟩
  rw [decide_eq_true_iff]
  refine ⟨?_, by omega⟩
  rw [same, account]

/-! ## The data set -/

theorem events_replayed (outside : Nat -> Surroundings) (stream : List Event) :
    (replayed outside stream).map Prod.snd = stream := by
  rw [replayed, List.map_map]
  exact List.zipIdx_map_fst 0 stream

/-- Whatever is drawn comes to a stream with features. -/
theorem featured_stream (P : Platform) (R : Runtime) (graph : SanctionsGraphClient) (outside : Nat -> Surroundings)
    (draws : Nat -> NormalDraw) (incidents : Nat -> Incident) (nSamples : Int) (anomalyRate : ℚ) :
    ∃ passes stream features, buildStream draws incidents nSamples anomalyRate = .ok (stream.map Event.txn) ∧
      Streamed draws incidents nSamples anomalyRate passes stream ∧
      Featured P R graph .new (replayed outside stream) features ∧ features.length = stream.length ∧
      ∀ before event later, stream = before ++ event :: later -> ∃ own, features[before.length]? = some own ∧
        own.velocity1h = min ((hourly P before event : ℚ) / 100) 1 := by
  rcases buildStream_spec draws incidents nSamples anomalyRate with ⟨passes, stream, built, streamed⟩
  have ordered : ([] ++ replayed outside stream).Pairwise fun (early late : Surroundings × Event) =>
      early.2.body.timestampNs ≤ late.2.body.timestampNs := by
    have own := streamed.ordered
    rw [← events_replayed outside stream, List.pairwise_map] at own
    exact own
  rcases featured_replayed P R graph [] (replayed outside stream) ordered with ⟨features, featured, length, exact⟩
  rw [events_replayed] at exact
  refine ⟨passes, stream, features, built, streamed, featured, ?_, exact⟩
  rw [length, ← List.length_map, events_replayed]

/-- The labels of a stream count what was drawn for it. -/
theorem length_labelled_of_streamed {draws : Nat -> NormalDraw} {incidents : Nat -> Incident} {nSamples : Int}
    {anomalyRate : ℚ} {passes : Nat} {stream : List Event}
    (streamed : Streamed draws incidents nSamples anomalyRate passes stream) {features : List Features}
    (length : features.length = stream.length) :
    (labelled false stream features).length = normalCount nSamples anomalyRate ∧
      (labelled true stream features).length = (entriesOf incidents 0 passes).length := by
  have anomalies : ∀ event ∈ entriesOf incidents 0 passes, event.anomalous = true := by
    intro event member
    rcases List.mem_flatMap.mp member with ⟨pass, -, own⟩
    exact Incident.anomalous_of_mem own
  have normals : ∀ event ∈ (List.range (normalCount nSamples anomalyRate)).map fun i => normalEvent (draws i),
      event.anomalous = false := by
    intro event member
    rcases List.mem_map.mp member with ⟨i, -, rfl⟩
    rfl
  rw [length_labelled false length, length_labelled true length, streamed.content.countP_eq,
    streamed.content.countP_eq, List.countP_append, List.countP_append]
  constructor
  · rw [List.countP_eq_length.mpr fun event member => decide_eq_true (normals event member),
      List.countP_eq_zero.mpr fun event member => by simp [anomalies event member], List.length_map, List.length_range,
      Nat.add_zero]
  · rw [List.countP_eq_length.mpr fun event member => decide_eq_true (anomalies event member),
      List.countP_eq_zero.mpr fun event member => by simp [normals event member], Nat.zero_add]

theorem buildDataset_of_featured {graph : SanctionsGraphClient} {outside : Nat -> Surroundings}
    {draws : Nat -> NormalDraw} {incidents : Nat -> Incident} {nSamples : Int} {anomalyRate : ℚ} {stream : List Event}
    {features : List Features} (built : buildStream draws incidents nSamples anomalyRate = .ok (stream.map Event.txn))
    (featured : Featured P R graph .new (replayed outside stream) features) (cast : ℚ -> ℚ) :
    buildDataset P R cast graph outside draws incidents nSamples anomalyRate =
      .ok ((labelled false stream features).map fun own => own.toVector.map cast,
        (labelled true stream features).map fun own => own.toVector.map cast) := by
  rcases append_featured featured [] [] with ⟨looked, entered, folded⟩
  unfold buildDataset
  rw [built]
  dsimp only [bind, Except.bind]
  rw [replayed_map, folded, events_replayed]
  dsimp only
  rw [List.nil_append, List.nil_append, List.map_map, List.map_map]
  rfl

/-- The rows of the data set are the features of a stream of all that was drawn, extracted in the
order of its times, and are told apart by its labels.  Each row has the exact count of its
account's last hour, so that every burst comes to a row of its own account that shows all of
it. -/
theorem dataset_rows (P : Platform) (R : Runtime) (cast : ℚ -> ℚ) (graph : SanctionsGraphClient)
    (outside : Nat -> Surroundings) (draws : Nat -> NormalDraw) (incidents : Nat -> Incident) (nSamples : Int)
    (anomalyRate : ℚ) :
    ∃ passes stream features, Streamed draws incidents nSamples anomalyRate passes stream ∧
      Featured P R graph .new (replayed outside stream) features ∧
      buildDataset P R cast graph outside draws incidents nSamples anomalyRate =
        .ok ((labelled false stream features).map fun own => own.toVector.map cast,
          (labelled true stream features).map fun own => own.toVector.map cast) ∧
      (labelled false stream features).length = normalCount nSamples anomalyRate ∧
      (labelled true stream features).length = (entriesOf incidents 0 passes).length ∧
      (∀ before event later, stream = before ++ event :: later -> ∃ own, features[before.length]? = some own ∧
        own.velocity1h = min ((hourly P before event : ℚ) / 100) 1) ∧
      ∀ pass < passes, (incidents pass).twist.name = "velocity_burst" -> ∃ before event later own,
        stream = before ++ event :: later ∧ features[before.length]? = some own ∧
          event.body.account = (incidents pass).account ∧ own ∈ labelled true stream features ∧
          ((incidents pass).size : ℚ) / 100 ≤ own.velocity1h := by
  rcases featured_stream P R graph outside draws incidents nSamples anomalyRate with
    ⟨passes, stream, features, built, streamed, featured, length, exact⟩
  rcases length_labelled_of_streamed streamed length with ⟨normal, anomalous⟩
  refine ⟨passes, stream, features, streamed, featured, buildDataset_of_featured built featured cast, normal,
    anomalous, exact, ?_⟩
  intro pass made burst
  rcases exists_whole_burst P streamed made burst with ⟨before, event, later, split, anomaly, -, account, whole⟩
  rcases exact before event later split with ⟨own, found, velocity⟩
  refine ⟨before, event, later, own, split, found, account, ?_, ?_⟩
  · rw [split]
    exact List.mem_map.mpr ⟨_, List.mem_filter.mpr ⟨mem_zip found, decide_eq_true anomaly⟩, rfl⟩
  · have shown : ((incidents pass).size : ℚ) ≤ hourly P before event := by exact_mod_cast whole
    have small : ((incidents pass).size : ℚ) ≤ 15 := by exact_mod_cast (incidents pass).many.2
    rw [velocity]
    apply le_min
    · linarith
    · linarith

end Training
end ZeroAudit
