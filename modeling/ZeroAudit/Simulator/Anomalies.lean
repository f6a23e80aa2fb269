import ZeroAudit.Simulator.Delivery

namespace ZeroAudit
namespace Simulator

open Foundation Signature Commitment Consumer Intent Screening

/-!
# What becomes of the anomalies

Three of the five kinds of anomaly are held by the rules, whatever the network says of
them: an amount below a reporting threshold, an account next to the list, and of a burst
the transactions from the twelfth further one on.  What the rules guarantee for a
transaction is its floor.  The other kinds have none.
-/

variable {P : Platform} {R : Runtime}

/-! ## Floors -/

/-- The score that the rules guarantee for an anomaly on its own. -/
def Twist.floor : Twist -> ℚ
  | .structuring .. => 90 / 100
  | .sanctionsAdjacent _ _ own .. =>
      if own ∈ SANCTIONED_ACCOUNTS then tierScore 1
      else if own ∈ RBI_FLAGGED_ACCOUNTS then tierScore 2
      else tierScore 3
  | _ => 0

/-- The further transactions of a burst, each with its floor. -/
def burstFloors (account : String) (first : Nat) (legs : List Leg) : List (Body × ℚ) :=
  (legs.zipIdx first).map fun leg => (leg.1.body account, if 11 ≤ leg.2 then 80 / 100 else 0)

/-- The bodies of a round, each with its floor. -/
def Round.floors : Round -> List (Body × ℚ)
  | .normal draw => [(draw.body, 0)]
  | .anomalous draw uuid twist burst =>
      (anomalousBody draw uuid twist, twist.floor) ::
        match twist with
        | .velocityBurst _ => burstFloors (anomalousBody draw uuid twist).account 0 burst.legs
        | _ => []

/-- The nanoseconds of a further transaction. -/
def Leg.timestampNs (leg : Leg) : Int := toNanoseconds leg.now.time

/-- No two further transactions of a burst are an hour apart. -/
def Timely (legs : List Leg) : Prop :=
  legs.Pairwise fun earlier later => later.timestampNs - 3600 * 10 ^ 9 < earlier.timestampNs

/-- The bursts of a round are timely. -/
def Round.Timely : Round -> Prop
  | .anomalous _ _ (.velocityBurst _) burst => Simulator.Timely burst.legs
  | _ => True

/-! ## Guarantees -/

/-- The engine gives the call this score at least. -/
def Guarantees (P : Platform) (R : Runtime) (detector : AnomalyDetector) (outside : Surroundings) (call : ScoreCall)
    (floor : ℚ) : Prop :=
  ∀ verdict after, detector.score P R outside call = (.ok verdict, after) ->
    verdict.anomalyScore.ge (.literal floor) = true

/-- A rule that matches guarantees its score. -/
theorem guarantees_of_matches {detector entered : AnomalyDetector} {outside : Surroundings} {call : ScoreCall}
    {floor : ℚ} (recorded : detector.recorded outside call = .ok entered)
    (matching : ∀ features graphFlag graph,
      extractFeatures P R entered.graph entered.velocity outside call = (.ok (features, graphFlag), graph) ->
      ∃ rule, Matches features (AnomalyDetector.hopsOf features) graphFlag rule ∧ floor ≤ rule.1) :
    Guarantees P R detector outside call floor := by
  intro verdict after scored
  rcases score_inversion scored with
    ⟨_, features, graphFlag, graph, noveltyScore, reconError, same, extracted, novel⟩
  cases recorded.symm.trans same
  rcases matching features graphFlag graph extracted with ⟨rule, matched, reaches⟩
  have strong := typology_spec features _ graphFlag rule (mem_matchedRules_iff.mpr matched)
  rcases novelty_range novel with ⟨own, rfl, -, -⟩
  have explained : typology features (AnomalyDetector.hopsOf features) graphFlag = (0, "NONE") ∨
      Explains (typology features (AnomalyDetector.hopsOf features) graphFlag) :=
    (typology_cases features (AnomalyDetector.hopsOf features) graphFlag).imp_right
      (explains_of_matched (flag_of_extractFeatures extracted))
  rw [verdict_of_score scored recorded extracted novel]
  generalize typology features (AnomalyDetector.hopsOf features) graphFlag = strongest at strong explained ⊢
  unfold AnomalyDetector.verdict
  dsimp only
  rw [PyFloat.literal, strongest_finite]
  have atLeast : _ = true := PyFloat.round_mono (le_max_right own (Binary64.nearest strongest.1)) 4
  rw [← PyFloat.literal, round4_of_rule explained] at atLeast
  exact ge_trans atLeast (decide_eq_true (Binary64.nearest_mono (reaches.trans strong)))

/-- What the features say of the amount and of the account's last hour. -/
theorem features_of_extractFeatures {graph after : SanctionsGraphClient} {velocity : VelocityTracker}
    {outside : Surroundings} {call : ScoreCall} {features : Features} {graphFlag : String}
    (extracted : extractFeatures P R graph velocity outside call = (.ok (features, graphFlag), after)) :
    features.thresholdProximity = thresholdProximity call.amountCents ∧
      ∃ recent, velocity.count1h call.accountHash call.timestampNs outside.now = .ok recent ∧
        features.velocity1h = min ((recent : ℚ) / 100) 1 := by
  unfold extractFeatures at extracted
  simp only at extracted
  split at extracted
  · cases extracted
  · rcases Prod.mk.inj extracted with ⟨built, -⟩
    rcases bind_eq_ok_iff.mp built with ⟨recent, counted, built⟩
    rcases bind_eq_ok_iff.mp built with ⟨amount, -, same⟩
    cases same
    exact ⟨rfl, recent, counted, rfl⟩

/-- The amounts of structuring lie close below a threshold. -/
theorem close_of_structuring : ∀ threshold ∈ [(100000000 : Int), 500000000, 1000000000],
    ∀ below ∈ [(100 : Int), 500, 1000], 90 / 100 < thresholdProximity (threshold - below) := by
  decide +kernel

theorem guarantees_structuring {detector entered : AnomalyDetector} {outside : Surroundings} {call : ScoreCall}
    (recorded : detector.recorded outside call = .ok entered) (close : 90 / 100 < thresholdProximity call.amountCents) :
    Guarantees P R detector outside call (90 / 100) := by
  apply guarantees_of_matches recorded
  intro features graphFlag graph extracted
  rw [← (features_of_extractFeatures extracted).1] at close
  exact ⟨_, .structuring close, le_rfl⟩

/-- Twelve transactions in an hour are a spike at least. -/
theorem guarantees_burst {detector entered : AnomalyDetector} {outside : Surroundings} {call : ScoreCall}
    (recorded : detector.recorded outside call = .ok entered)
    (many : ∀ recent, entered.velocity.count1h call.accountHash call.timestampNs outside.now = .ok recent ->
      12 ≤ recent) : Guarantees P R detector outside call (80 / 100) := by
  apply guarantees_of_matches recorded
  intro features graphFlag graph extracted
  rcases (features_of_extractFeatures extracted).2 with ⟨recent, counted, velocity⟩
  have twelve : (12 : ℚ) ≤ recent := by exact_mod_cast many recent counted
  have fast : 12 ≤ features.velocity1h * 100 := by
    rw [velocity]
    have least : (12 / 100 : ℚ) ≤ min ((recent : ℚ) / 100) 1 := by
      apply le_min
      · linarith
      · norm_num
    linarith
  by_cases faster : 20 ≤ features.velocity1h * 100
  · exact ⟨_, .burst faster, by norm_num⟩
  · exact ⟨_, .spike faster fast, le_rfl⟩

theorem tierScore_antitone {near far : Nat} (closer : near ≤ far) (positive : 1 ≤ near) :
    tierScore far ≤ tierScore near := by
  unfold tierScore
  split
  · rw [if_pos (by omega)]
  · split
    · split
      · norm_num
      · rw [if_pos (by omega)]
    · split
      · norm_num
      · split <;> norm_num

/-- An account next to the list is found by an engine that is online. -/
theorem guarantees_listed {detector : AnomalyDetector} {outside : Surroundings} {call : ScoreCall}
    (online : detector.graph.available = true)
    (served : ∃ graph, Loaded P graph ∧ ∀ accountHash counterpartyHash,
      outside.answer accountHash counterpartyHash = graph.answer accountHash counterpartyHash)
    {hops far : Nat} (found : tierAnswer P call.accountHash call.counterpartyHash = some hops) (within : hops ≤ far) :
    Guarantees P R detector outside call (tierScore far) := by
  intro verdict after scored
  rcases served with ⟨graph, loaded, answers⟩
  have look : (detector.graph.hopsToSanctioned (outside.answer call.accountHash call.counterpartyHash)).1 =
      lookOf (tierAnswer P call.accountHash call.counterpartyHash) := by
    rw [answers, answer_of_loaded loaded]
    exact look_of_online online _
  have screened := screened_of_score scored (fun hops found => tierAnswer_range found) look
  exact ge_trans (screened.scored hops found)
    (decide_eq_true (Binary64.nearest_mono (tierScore_antitone within (tierAnswer_range found).1)))

/-- The accounts that the bank draws from are those that the loader seeds, at these hops. -/
theorem seeded_of_pool : ∀ pool ∈ [SANCTIONED_ACCOUNTS, RBI_FLAGGED_ACCOUNTS, FATF_FLAGGED_ACCOUNTS], ∀ own ∈ pool,
    ∃ account ∈ demoAccounts, account.2 = own ∧
      (if own ∈ SANCTIONED_ACCOUNTS then tierScore 1 else if own ∈ RBI_FLAGGED_ACCOUNTS then tierScore 2
        else tierScore 3) = tierScore account.1.hops := by
  decide +kernel

/-- A seeded account on either side is found, no further than its tier. -/
theorem tierAnswer_le {account : Tier × String} (member : account ∈ demoAccounts) {own other : PyStr}
    (side : accountHash P account.2 = own ∨ accountHash P account.2 = other) :
    ∃ hops, tierAnswer P own other = some hops ∧ hops ≤ account.1.hops := by
  rcases tierHops_le (P := P) member with ⟨hops, found, within⟩
  have among : hops ∈ [own, other].filterMap (tierHops P) := by
    apply List.mem_filterMap.mpr
    rcases side with rfl | rfl
    · exact ⟨_, List.mem_cons_self, found⟩
    · exact ⟨_, List.mem_cons_of_mem _ List.mem_cons_self, found⟩
  cases least : tierAnswer P own other with
  | none =>
      rw [tierAnswer, List.min?_eq_none_iff] at least
      rw [least] at among
      cases among
  | some near => exact ⟨near, rfl, ((List.min?_eq_some_iff.mp least).2 _ among).trans within⟩

/-- Every anomaly guarantees its floor, if it has one. -/
theorem guarantees_twist {detector entered : AnomalyDetector} {outside : Surroundings} {draw : NormalDraw}
    {uuid : String} {twist : Twist}
    (recorded : detector.recorded outside ((anomalousBody draw uuid twist).scoreCall P) = .ok entered)
    (online : detector.graph.available = true)
    (served : ∃ graph, Loaded P graph ∧ ∀ accountHash counterpartyHash,
      outside.answer accountHash counterpartyHash = graph.answer accountHash counterpartyHash)
    (positive : 0 < twist.floor) :
    Guarantees P R detector outside ((anomalousBody draw uuid twist).scoreCall P) twist.floor := by
  cases twist with
  | structuring threshold below threshold_mem below_mem =>
      exact guarantees_structuring recorded (close_of_structuring threshold threshold_mem below below_mem)
  | sanctionsAdjacent pool pool_mem own own_mem side amount =>
      rcases seeded_of_pool pool pool_mem own own_mem with ⟨account, member, rfl, same⟩
      rw [Twist.floor, same]
      cases side with
      | false =>
          rcases tierAnswer_le (P := P) member (Or.inl rfl) with ⟨hops, found, within⟩
          exact guarantees_listed online served found within
      | true =>
          rcases tierAnswer_le (P := P) member (Or.inr rfl) with ⟨hops, found, within⟩
          exact guarantees_listed online served found within
  | offhoursSettlement => exact (lt_irrefl _ positive).elim
  | velocityBurst => exact (lt_irrefl _ positive).elim
  | benfordViolation => exact (lt_irrefl _ positive).elim

/-! ## The window of an account -/

/-- The account has these times after the entry of one, also where others were forgotten. -/
theorem timesOf_record {tracker after : VelocityTracker} {accountHash : PyStr} {timestampNs nowNs : Int} {time : ℚ}
    (converted : seconds (if timestampNs = 0 then nowNs else timestampNs) = .ok time)
    (recorded : tracker.record accountHash timestampNs nowNs = .ok after) :
    after.timesOf accountHash =
        SlidingQueue.push (VelocityTracker.cutoff tracker.window) (tracker.timesOf accountHash) time ∧
      after.window = tracker.window := by
  have filled := SlidingQueue.push_ne_nil (VelocityTracker.cutoff_le tracker.window) (tracker.timesOf accountHash) time
  unfold VelocityTracker.record at recorded
  simp only [converted, bind, Except.bind, pure, Except.pure] at recorded
  unfold SlidingQueue.push VelocityTracker.cutoff at filled ⊢
  generalize (tracker.timesOf accountHash ++ [time]).dropWhile
    (fun other => decide (other < time - tracker.window)) = kept at recorded filled ⊢
  have found : Retention.lookup accountHash (VelocityTracker.assign accountHash kept tracker.times) = some kept := by
    rw [VelocityTracker.assign_eq_upsert, Retention.lookup_upsert, if_pos rfl]
  cases recorded
  refine ⟨?_, rfl⟩
  rw [VelocityTracker.timesOf_eq_lookup]
  dsimp only
  split
  · rw [VelocityTracker.lookup_forget found filled]
    rfl
  · rw [found]
    rfl

/-- The times of an account end with those of these transactions. -/
def EndsWith (velocity : VelocityTracker) (accountHash : PyStr) (legs : List Leg) : Prop :=
  ∃ older, velocity.timesOf accountHash = older ++ legs.map fun leg => (leg.timestampNs : ℚ) / 10 ^ 9

theorem recent_of_timely {past : List Leg} {leg : Leg} (timely : Timely (past ++ [leg])) :
    ∀ time ∈ past.map (fun leg => (leg.timestampNs : ℚ) / 10 ^ 9),
      (leg.timestampNs : ℚ) / 10 ^ 9 - 3600 < time := by
  intro time member
  rcases List.mem_map.mp member with ⟨earlier, among, rfl⟩
  have close := (List.pairwise_append.mp timely).2.2 earlier among leg (List.mem_singleton_self leg)
  have own : (leg.timestampNs : ℚ) - 3600 * 10 ^ 9 < earlier.timestampNs := by exact_mod_cast close
  linarith

/-- A further transaction of a timely burst drops none of the earlier ones. -/
theorem endsWith_recorded {detector entered : AnomalyDetector} {outside : Surroundings} {account : String}
    {past : List Leg} {leg : Leg} (hour : detector.velocity.window = 3600)
    (endsWith : EndsWith detector.velocity (accountHash P account) past) (timely : Timely (past ++ [leg]))
    (recorded : detector.recorded outside ((leg.body account).scoreCall P) = .ok entered) :
    EndsWith entered.velocity (accountHash P account) (past ++ [leg]) := by
  rcases endsWith with ⟨older, times⟩
  rcases bind_eq_ok_iff.mp recorded with ⟨velocity, entry, same⟩
  cases same
  have entered := (timesOf_record (entry_of_body outside (leg.body account)) entry).1
  have recent : ∀ other ∈ past.map (fun leg => (leg.timestampNs : ℚ) / 10 ^ 9),
      VelocityTracker.cutoff detector.velocity.window ((leg.timestampNs : ℚ) / 10 ^ 9) ≤ other := by
    intro other member
    rw [hour]
    exact (recent_of_timely timely other member).le
  have pushed : velocity.timesOf (accountHash P account) =
      SlidingQueue.push (VelocityTracker.cutoff detector.velocity.window)
        (older ++ past.map fun leg => (leg.timestampNs : ℚ) / 10 ^ 9) ((leg.timestampNs : ℚ) / 10 ^ 9) := by
    rw [← times]
    exact entered
  unfold EndsWith
  rw [List.map_append, pushed]
  exact SlidingQueue.push_of_current recent (VelocityTracker.cutoff_le ..)

/-- It is counted with all of them. -/
theorem count_of_endsWith {velocity : VelocityTracker} {accountHash : PyStr} {past : List Leg} {leg : Leg} {now : ℚ}
    {recent : Nat} (hour : velocity.window = 3600) (endsWith : EndsWith velocity accountHash (past ++ [leg]))
    (timely : Timely (past ++ [leg]))
    (counted : velocity.count1h accountHash leg.timestampNs now = .ok recent) : past.length + 1 ≤ recent := by
  rcases endsWith with ⟨older, times⟩
  have nonzero : leg.timestampNs ≠ 0 := by
    have dated := (leg.body "").dated
    change _ ≤ leg.timestampNs ∧ _ at dated
    omega
  have converted : seconds leg.timestampNs = .ok (leg.timestampNs / 10 ^ 9) := seconds_of_body (leg.body "")
  unfold VelocityTracker.count1h at counted
  rw [if_neg nonzero, converted] at counted
  cases counted
  rw [times, hour, List.countP_append]
  apply le_add_left
  apply le_of_eq
  symm
  have all : ∀ time ∈ (past ++ [leg]).map (fun leg => (leg.timestampNs : ℚ) / 10 ^ 9),
      decide ((leg.timestampNs : ℚ) / 10 ^ 9 - (3600 : Nat) < time) = true := by
    intro time member
    rw [decide_eq_true_iff]
    rw [List.map_append, List.mem_append] at member
    rcases member with earlier | last
    · exact recent_of_timely timely time earlier
    · rw [List.map_singleton, List.mem_singleton] at last
      rw [last]
      norm_num
  rw [List.countP_eq_length.mpr all, List.length_map, List.length_append, List.length_singleton]

/-! ## The loop -/

section Loop

variable {L K : Type} {ledgerCalls : LedgerCalls L} {producerCalls : ProducerCalls K} {settings : Settings}

/-- A prover that can commit, with an engine that is online and counts an hour. -/
structure Watching (P : Platform) (seed : Bytes) (consumer : ProverConsumer L AnomalyDetector K)
    (detector : AnomalyDetector) : Prop where
  ready : Ready P seed consumer
  present : consumer.detector = some detector
  online : detector.graph.available = true
  hour : detector.velocity.window = 3600

/-- The answer commits the body, and its record is held if the floor reaches the threshold. -/
structure Caught (threshold : PyFloat) (answer : Option (AddCall × CommitmentRecord)) (own : Body × ℚ) : Prop where
  committed : Committed answer own.1
  quarantined : 0 < own.2 -> (PyFloat.literal own.2).ge threshold = true ->
    ∀ call record, answer = some (call, record) -> record.status = .quarantined

/-- The topic delivers a message of the bank, and the database answers from a loaded graph. -/
def Supplied (P : Platform) (input : Surroundings × Message) (body : Body) : Prop :=
  (∃ graph, Loaded P graph ∧ ∀ accountHash counterpartyHash,
    input.1.answer accountHash counterpartyHash = graph.answer accountHash counterpartyHash) ∧ Delivers P input body

variable (ledgerCalls producerCalls settings)

/-- A message is entered and committed, and held as far as the engine guarantees it. -/
theorem watching_ingest {seed : Bytes} (seedLength : seed.length = Lwe.SEED_LEN)
    {consumer : ProverConsumer L AnomalyDetector K} {detector : AnomalyDetector}
    (watching : Watching P seed consumer detector) {input : Surroundings × Message} {body : Body}
    (supplied : Supplied P input body) :
    let ingested := ingest P R ledgerCalls producerCalls settings consumer input
    ∃ entered after, detector.recorded input.1 (body.scoreCall P) = .ok entered ∧
      after.velocity = entered.velocity ∧ Watching P seed ingested.2 after ∧
      ∀ floor, (0 < floor -> Guarantees P R detector input.1 (body.scoreCall P) floor) ->
        Caught settings.anomalyThreshold ingested.1 (body, floor) := by
  rcases supplied with ⟨⟨graph, loaded, answers⟩, fields, value, emitted⟩
  rcases ingest_of_emitted (R := R) ledgerCalls producerCalls settings seedLength watching.ready value emitted with
    ⟨committed, ready, -⟩
  have asked : scoreCall P settings input.2 = some (body.scoreCall P) := scoreCall_of_emitted value emitted
  rcases (detector.recorded_ok_iff input.1 (body.scoreCall P)).mpr ⟨_, entry_of_body input.1 body⟩ with
    ⟨entered, recorded⟩
  rcases available_ingest (P := P) (R := R) ledgerCalls producerCalls settings watching.present input with
    ⟨after, present, online⟩
  have answered : ¬Outage P settings input := by
    rintro ⟨call, same, -, failed⟩
    rw [answers, answer_of_loaded loaded] at failed
    exact answerOf_ne_failed _ failed
  have velocity : after.velocity = entered.velocity := by
    have windows := windows_of_scoreCall P R settings asked recorded
    have own : (ingest P R ledgerCalls producerCalls settings consumer input).2.detector =
        (request P (engineCalls P R input.1) settings (some detector) input.2).2 := by
      rw [← watching.present]
      exact detector_process ..
    rw [← own, present] at windows
    exact congrArg Prod.fst (Option.some.inj windows)
  have hour : after.velocity.window = 3600 := by
    rcases bind_eq_ok_iff.mp recorded with ⟨own, entry, same⟩
    cases same
    rw [velocity]
    exact (timesOf_record (entry_of_body input.1 body) entry).2.trans watching.hour
  refine ⟨entered, after, recorded, velocity, ⟨ready, present, online.mpr ⟨watching.online, answered⟩, hour⟩, ?_⟩
  intro floor guarantees
  refine ⟨committed, ?_⟩
  intro positive reaches call record own
  rcases scored_of_committed watching.present own with ⟨other, verdict, last, same, scored, -, status⟩
  rw [asked] at same
  cases same
  exact status.mpr (ge_trans (guarantees positive verdict last scored) reaches)

/-- The rest of a burst is held from its twelfth further transaction on. -/
theorem caught_burst {seed : Bytes} (seedLength : seed.length = Lwe.SEED_LEN) {account : String} {past legs : List Leg}
    (timely : Timely (past ++ legs)) {consumer : ProverConsumer L AnomalyDetector K} {detector : AnomalyDetector}
    (watching : Watching P seed consumer detector)
    (endsWith : EndsWith detector.velocity (accountHash P account) past) {inputs : List (Surroundings × Message)}
    (supplied : List.Forall₂ (Supplied P) inputs (legs.map fun leg => leg.body account)) :
    let handled := Machine.run (ingest P R ledgerCalls producerCalls settings) consumer inputs
    List.Forall₂ (Caught settings.anomalyThreshold) handled.1 (burstFloors account past.length legs) ∧
      ∃ after, Watching P seed handled.2 after := by
  rw [List.forall₂_map_right_iff] at supplied
  induction supplied generalizing past consumer detector with
  | nil => exact ⟨.nil, detector, watching⟩
  | @cons input leg inputs legs first _ inductionHypothesis =>
      rw [List.append_cons] at timely
      have here : Timely (past ++ [leg]) := (List.pairwise_append.mp timely).1
      rcases watching_ingest (R := R) ledgerCalls producerCalls settings seedLength watching first with
        ⟨entered, after, recorded, velocity, watched, caught⟩
      have entry := endsWith_recorded watching.hour endsWith here recorded
      have floor : 0 < (if 11 ≤ past.length then 80 / 100 else 0 : ℚ) -> Guarantees P R detector input.1
          ((leg.body account).scoreCall P) (if 11 ≤ past.length then 80 / 100 else 0) := by
        intro positive
        split at positive
        · next many =>
            rw [if_pos many]
            apply guarantees_burst recorded
            intro recent counted
            have least := count_of_endsWith (velocity ▸ watched.hour) entry here counted
            omega
        · exact (lt_irrefl _ positive).elim
      rw [← velocity] at entry
      rcases inductionHypothesis timely watched entry with ⟨rest, last⟩
      rw [List.length_append, List.length_singleton] at rest
      exact ⟨.cons (caught _ floor) rest, last⟩

/-- The transactions of a round are held as their floors ask for. -/
theorem caught_round {seed : Bytes} (seedLength : seed.length = Lwe.SEED_LEN) {round : Round} (timely : round.Timely)
    {consumer : ProverConsumer L AnomalyDetector K} {detector : AnomalyDetector}
    (watching : Watching P seed consumer detector) {inputs : List (Surroundings × Message)}
    (supplied : List.Forall₂ (Supplied P) inputs round.bodies) :
    let handled := Machine.run (ingest P R ledgerCalls producerCalls settings) consumer inputs
    List.Forall₂ (Caught settings.anomalyThreshold) handled.1 round.floors ∧
      ∃ after, Watching P seed handled.2 after := by
  cases round with
  | normal draw =>
      cases supplied with
      | cons first rest =>
          cases rest
          rcases watching_ingest (R := R) ledgerCalls producerCalls settings seedLength watching first with
            ⟨entered, after, -, -, watched, caught⟩
          exact ⟨.cons (caught 0 fun positive => (lt_irrefl _ positive).elim) .nil, after, watched⟩
  | anomalous draw uuid twist burst =>
      cases supplied with
      | @cons input _ inputs _ first rest =>
          rcases watching_ingest (R := R) ledgerCalls producerCalls settings seedLength watching first with
            ⟨entered, after, recorded, -, watched, caught⟩
          have own := caught twist.floor fun positive =>
            guarantees_twist recorded watching.online first.1 positive
          cases twist with
          | velocityBurst index =>
              have none : EndsWith after.velocity
                  (accountHash P (anomalousBody draw uuid (.velocityBurst index)).account) [] :=
                ⟨_, (List.append_nil _).symm⟩
              have whole : Timely ([] ++ burst.legs) := timely
              rcases caught_burst (R := R) ledgerCalls producerCalls settings seedLength whole watched none rest with
                ⟨legs, last⟩
              exact ⟨.cons own legs, last⟩
          | _ =>
              cases rest
              exact ⟨.cons own .nil, after, watched⟩

theorem caught_rounds {seed : Bytes} (seedLength : seed.length = Lwe.SEED_LEN) {rounds : List Round}
    (timely : ∀ round ∈ rounds, round.Timely) {consumer : ProverConsumer L AnomalyDetector K}
    {detector : AnomalyDetector} (watching : Watching P seed consumer detector)
    {inputs : List (Surroundings × Message)}
    (supplied : List.Forall₂ (Supplied P) inputs (rounds.flatMap Round.bodies)) :
    List.Forall₂ (Caught settings.anomalyThreshold)
      (Machine.run (ingest P R ledgerCalls producerCalls settings) consumer inputs).1
      (rounds.flatMap Round.floors) := by
  induction rounds generalizing consumer detector inputs with
  | nil =>
      cases supplied
      exact .nil
  | cons round rounds inductionHypothesis =>
      rw [List.forall_mem_cons] at timely
      rw [List.flatMap_cons] at supplied ⊢
      rcases caught_round (R := R) ledgerCalls producerCalls settings seedLength timely.1 watching
        (List.forall₂_take_append _ _ _ supplied) with ⟨first, _, watched⟩
      have later := inductionHypothesis timely.2 watched (List.forall₂_drop_append _ _ _ supplied)
      rw [← List.take_append_drop round.bodies.length inputs, Machine.run_append]
      exact List.rel_append first later

variable {ledgerCalls producerCalls settings}

/-- What the bank injects is held.  In every run of a prover that is online and reads what
the bank has sent, each transaction is committed, and its record is quarantined wherever the
floor of its anomaly reaches the threshold. -/
theorem injected_held {S : Type} {send : S -> Dict -> Except PyError Unit × S} {producer : S} {key : SigningKey}
    {total : Option Nat} {rounds : List Round} {after : BankSimulator S}
    (ran : BankSimulator.run P send total ⟨some key, producer, 0, 0, []⟩ rounds = (.ok (), after))
    (timely : ∀ round ∈ rounds, round.Timely) {seed : Bytes} (seedLength : seed.length = Lwe.SEED_LEN)
    {consumer : ProverConsumer L AnomalyDetector K} {detector : AnomalyDetector}
    (watching : Watching P seed consumer detector) {inputs : List (Surroundings × Message)}
    (delivered : inputs.map (fun input => input.2.value) = after.sent.map Json.obj)
    (served : ∀ input ∈ inputs, ∃ graph, Loaded P graph ∧ ∀ accountHash counterpartyHash,
      input.1.answer accountHash counterpartyHash = graph.answer accountHash counterpartyHash) :
    ∃ performed, performed <+: rounds ∧
      (performed = rounds ∨ ∃ enough, total = some enough ∧ enough ≤ after.count) ∧
      List.Forall₂ (Caught settings.anomalyThreshold)
        (Machine.run (ingest P R ledgerCalls producerCalls settings) consumer inputs).1
        (performed.flatMap Round.floors) := by
  have signing : (⟨some key, producer, 0, 0, []⟩ : BankSimulator S).key = some key := rfl
  rcases BankSimulator.run_spec P send signing total rounds with ⟨performed, part, emits, ended⟩
  rw [ran] at emits ended
  refine ⟨performed, part, ended rfl, ?_⟩
  rcases emits.extended with ⟨bodies, extended, -, whole⟩
  cases whole rfl
  rcases extended.sent with ⟨messages, sent, emitted⟩
  rw [sent, List.nil_append] at delivered
  have supplied : List.Forall₂ (Supplied P) inputs (performed.flatMap Round.bodies) :=
    (List.forall₂_and_left ..).mpr ⟨served, delivers_of_sent emitted delivered⟩
  exact caught_rounds ledgerCalls producerCalls settings seedLength
    (fun round member => timely round (part.subset member)) watching supplied

end Loop

/-! ## The small day, watched -/

theorem watching_sample : Watching samplePlatform Sample.latticeSeed
    (.new sampleStore (some screeningDetector) () : ProverConsumer Unit AnomalyDetector Unit) screeningDetector where
  ready := ⟨rfl, head_sampleStore ▸ isDigest_genesis, by rintro _ ⟨⟩ own ⟨⟩ vector; exact ⟨_, rfl⟩⟩
  present := rfl
  online := rfl
  hour := rfl

theorem injected_held_sample :
    ∃ after, BankSimulator.run samplePlatform takeAndCount none ⟨some sampleBankKey, 0, 0, 0, []⟩ sampleRounds =
        (.ok (), after) ∧
      ∀ threshold, List.Forall₂ (Caught threshold)
        (Machine.run (ingest samplePlatform sampleRuntime sampleCalls sampleProducer ⟨threshold, true⟩)
          (.new sampleStore (some screeningDetector) ()) (deliveries screeningSurroundings after.sent)).1
        (sampleRounds.flatMap Round.floors) := by
  have signing : (⟨some sampleBankKey, 0, 0, 0, []⟩ : BankSimulator Nat).key = some sampleBankKey := rfl
  rcases BankSimulator.run_spec samplePlatform takeAndCount signing none sampleRounds with ⟨_, -, emits, -⟩
  rcases outcome : BankSimulator.run samplePlatform takeAndCount none ⟨some sampleBankKey, 0, 0, 0, []⟩ sampleRounds
    with ⟨answer, after⟩
  rw [outcome] at emits
  have ran := run_takeAndCount outcome emits.raised
  refine ⟨after, outcome.symm.trans ran, ?_⟩
  intro threshold
  have timely : ∀ round ∈ sampleRounds, round.Timely := by
    simp only [sampleRounds, List.forall_mem_cons]
    refine ⟨trivial, trivial, ?_, fun _ member => (List.not_mem_nil member).elim⟩
    change List.Pairwise _ (List.replicate 12 _)
    rw [List.pairwise_replicate]
    exact Or.inr (Int.sub_lt_self _ (by decide))
  have served : ∀ input ∈ deliveries screeningSurroundings after.sent, ∃ graph, Loaded samplePlatform graph ∧
      ∀ accountHash counterpartyHash,
        input.1.answer accountHash counterpartyHash = graph.answer accountHash counterpartyHash := by
    intro input member
    rcases List.mem_map.mp member with ⟨txn, -, rfl⟩
    exact ⟨sampleGraph, loaded_sampleGraph, fun _ _ => rfl⟩
  rcases @injected_held samplePlatform sampleRuntime Unit Unit sampleCalls sampleProducer ⟨threshold, true⟩ _ _ _ _ _
    _ _ ran timely _ rfl _ _ watching_sample _ (value_deliveries ..) served with ⟨performed, -, ended, caught⟩
  have whole : performed = sampleRounds := by
    rcases ended with whole | ⟨_, ⟨⟩, _⟩
    exact whole
  rwa [whole] at caught

end Simulator
end ZeroAudit
