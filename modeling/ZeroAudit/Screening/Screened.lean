import ZeroAudit.Intent.Risk
import ZeroAudit.Intent.Traces
import ZeroAudit.Screening.Loading

namespace ZeroAudit
namespace Screening

open Foundation Commitment Consumer Intent

/-!
# What is screened

The engine asks the graph about every transaction it scores, until one query fails.  Up to
then the score of a transaction is at least that of the tier of either account, and its
reason is the sanctions list exactly for the accounts next to it.  After a query that fails
the client does not ask again, and no transaction is screened for as long as the process
runs, also where the graph is back.
-/

variable {P : Platform} {R : Runtime}

/-! ## The verdict -/

/-- The score that the rules give to an account of a tier. -/
def tierScore (hops : Nat) : ℚ := if hops = 1 then 95 / 100 else if hops = 2 then 85 / 100 else 70 / 100

/-- A score and a reason go with what was found about the two accounts. -/
structure Screened (score : PyFloat) (reason : Json) (found : Option Nat) : Prop where
  listed : reason = Json.text "OFAC_SANCTION_LIST" ↔ found = some 1
  scored : ∀ hops, found = some hops -> score.ge (.literal (tierScore hops)) = true

/-- What the client says where these hops were found, or nothing was. -/
def lookOf (found : Option Nat) : Int × String := (found.getD 8, programSeverity (found.getD 8))

/-- The features hold what the client said. -/
theorem look_of_extractFeatures {graph after : SanctionsGraphClient} {velocity : VelocityTracker}
    {outside : Surroundings} {call : ScoreCall} {features : Features} {graphFlag : String}
    (extracted : extractFeatures P R graph velocity outside call = (.ok (features, graphFlag), after)) :
    let look := (graph.hopsToSanctioned (outside.answer call.accountHash call.counterpartyHash)).1
    AnomalyDetector.hopsOf features = min look.1 8 ∧ graphFlag = look.2 := by
  unfold extractFeatures at extracted
  simp only at extracted
  split at extracted
  · cases extracted
  · rcases Prod.mk.inj extracted with ⟨built, -⟩
    rcases bind_eq_ok_iff.mp built with ⟨recent, -, built⟩
    rcases bind_eq_ok_iff.mp built with ⟨amount, -, same⟩
    cases same
    exact ⟨hopsOf_of_graphHops rfl, rfl⟩

/-- Beyond the first tier no rule gives the sanctions list as its reason. -/
theorem reason_ne_ofac {features : Features} {hops : Int} {graphFlag : String} (far : 1 < hops)
    (other : hops ≤ 3 -> graphFlag = "RBI_FLAG_2024" ∨ graphFlag = "FATF_GREY_LIST") :
    (typology features hops graphFlag).2 ≠ "OFAC_SANCTION_LIST" := by
  have flagged : hops ≤ 3 -> ∀ default, flagOr graphFlag default ≠ "OFAC_SANCTION_LIST" := by
    intro near default
    rcases other near with rfl | rfl <;> simp [flagOr]
  rcases typology_cases features hops graphFlag with none | matched
  · rw [none]
    decide
  · generalize typology features hops graphFlag = rule at matched
    cases mem_matchedRules_iff.mp matched with
    | listed near => omega
    | second near => exact flagged (by omega) _
    | third near => exact flagged (by omega) _
    | structuring close => simp
    | burst fast => simp
    | spike slower fast => simp
    | benford surprising large => simp
    | offhours late large => simp

/-- At the first tier it is the only rule that is as strong. -/
theorem reason_eq_ofac {features : Features} :
    (typology features 1 "OFAC_SANCTION_LIST").2 = "OFAC_SANCTION_LIST" := by
  have own : (95 / 100, flagOr "OFAC_SANCTION_LIST" "OFAC_SANCTION_LIST") ∈
      matchedRules features 1 "OFAC_SANCTION_LIST" :=
    mem_matchedRules_iff.mpr (.listed le_rfl)
  have strong := typology_spec features 1 "OFAC_SANCTION_LIST" _ own
  rcases typology_cases features 1 "OFAC_SANCTION_LIST" with none | matched
  · rw [none] at strong
    norm_num at strong
  · generalize typology features 1 "OFAC_SANCTION_LIST" = rule at matched strong
    cases mem_matchedRules_iff.mp matched with
    | listed near => rfl
    | second near => cases near
    | third near => cases near
    | structuring close => norm_num at strong
    | burst fast => norm_num at strong
    | spike slower fast => norm_num at strong
    | benford surprising large => norm_num at strong
    | offhours late large => norm_num at strong

/-- The rule of a tier matches, and only that of the first gives its reason. -/
theorem typology_of_look (features : Features) {found : Option Nat}
    (range : ∀ hops, found = some hops -> 1 ≤ hops ∧ hops ≤ 3) :
    let rule := typology features (min (lookOf found).1 8) (lookOf found).2
    (∀ hops, found = some hops -> tierScore hops ≤ rule.1) ∧
      (rule.2 = "OFAC_SANCTION_LIST" ↔ found = some 1) := by
  have strong := fun hops graphFlag => typology_spec features hops graphFlag
  cases found with
  | none =>
      refine ⟨?_, fun listed => ?_, ?_⟩
      · rintro _ ⟨⟩
      · exact (reason_ne_ofac (by decide) (by decide) listed).elim
      · rintro ⟨⟩
  | some hops =>
      have cases : hops = 1 ∨ hops = 2 ∨ hops = 3 := by
        have bounds := range hops rfl
        omega
      rcases cases with rfl | rfl | rfl
      · refine ⟨?_, fun _ => rfl, fun _ => reason_eq_ofac⟩
        rintro _ ⟨⟩
        exact strong 1 _ _ (mem_matchedRules_iff.mpr (.listed le_rfl))
      · refine ⟨?_, fun listed => ?_, ?_⟩
        · rintro _ ⟨⟩
          exact strong 2 _ _ (mem_matchedRules_iff.mpr (.second rfl))
        · exact (reason_ne_ofac (by decide) (fun _ => Or.inl rfl) listed).elim
        · rintro ⟨⟩
      · refine ⟨?_, fun listed => ?_, ?_⟩
        · rintro _ ⟨⟩
          exact strong 3 _ _ (mem_matchedRules_iff.mpr (.third rfl))
        · exact (reason_ne_ofac (by decide) (fun _ => Or.inr rfl) listed).elim
        · rintro ⟨⟩

theorem noveltyReason_ne_ofac (threshold score : PyFloat) : noveltyReason threshold score ≠ "OFAC_SANCTION_LIST" := by
  unfold noveltyReason
  split
  · decide
  · split <;> decide

theorem text_inj {first second : String} : Json.text first = Json.text second ↔ first = second := by
  rw [Json.text, Json.text, Json.str.injEq, PyStr.ofString_inj]

/-- What reaches a finite line reaches every line below it. -/
theorem ge_trans {score threshold : PyFloat} {line : ℚ} (reached : score.ge (.finite line) = true)
    (above : (PyFloat.finite line).ge threshold = true) : score.ge threshold = true := by
  cases score with
  | finite own => exact ge_of_le (of_decide_eq_true reached) above
  | posInf =>
      cases threshold with
      | nan => cases above
      | _ => rfl
  | negInf => cases reached
  | nan => cases reached

/-- A verdict is screened by what the client has said. -/
theorem screened_of_score {detector after : AnomalyDetector} {outside : Surroundings} {call : ScoreCall}
    {verdict : Intent.Verdict} {found : Option Nat} (scored : detector.score P R outside call = (.ok verdict, after))
    (range : ∀ hops, found = some hops -> 1 ≤ hops ∧ hops ≤ 3)
    (look : (detector.graph.hopsToSanctioned (outside.answer call.accountHash call.counterpartyHash)).1 =
      lookOf found) :
    Screened verdict.anomalyScore (Json.text verdict.flagReason) found := by
  rcases score_inversion scored with
    ⟨entered, features, graphFlag, graph, noveltyScore, reconError, recorded, extracted, novel⟩
  have kept : entered.graph = detector.graph := by
    rcases bind_eq_ok_iff.mp recorded with ⟨velocity, -, same⟩
    cases same
    rfl
  rw [← kept] at look
  rcases look_of_extractFeatures extracted with ⟨hops, flag⟩
  rw [look] at hops flag
  rcases typology_of_look features range with ⟨strong, reason⟩
  rcases novelty_range novel with ⟨own, rfl, -, -⟩
  have explained : typology features (AnomalyDetector.hopsOf features) graphFlag = (0, "NONE") ∨
      Explains (typology features (AnomalyDetector.hopsOf features) graphFlag) :=
    (typology_cases features (AnomalyDetector.hopsOf features) graphFlag).imp_right
      (explains_of_matched (flag_of_extractFeatures extracted))
  rw [verdict_of_score scored recorded extracted novel]
  rw [hops, flag] at explained ⊢
  generalize typology features (min (lookOf found).1 8) (lookOf found).2 = rule at strong reason explained ⊢
  unfold AnomalyDetector.verdict
  dsimp only
  constructor
  · rw [text_inj, ← reason]
    split
    · rfl
    · next unmatched =>
        rcases explained with none | explains
        · rw [none]
          exact ⟨fun listed => (noveltyReason_ne_ofac _ _ listed).elim, fun listed => absurd listed (by decide)⟩
        · exact (unmatched explains.positive).elim
  · intro near listed
    rw [PyFloat.literal, strongest_finite]
    have atLeast : _ = true := PyFloat.round_mono (le_max_right own (Binary64.nearest rule.1)) 4
    rw [← PyFloat.literal, round4_of_rule explained] at atLeast
    exact ge_trans atLeast (decide_eq_true (Binary64.nearest_mono (strong near listed)))

/-! ## The client -/

/-- The date of a transaction, without which the graph is not asked. -/
def dateOf (call : ScoreCall) : Except PyError (Int × Int) := do
  let time ← seconds call.timestampNs
  fromTimestamp time

/-- The scoring comes to a query. -/
def Asks (outside : Surroundings) (call : ScoreCall) : Prop :=
  (∃ time, seconds (if call.timestampNs = 0 then outside.nowNs else call.timestampNs) = .ok time) ∧
    ∃ date, dateOf call = .ok date

/-- It comes to a query that fails. -/
def Fails (outside : Surroundings) (call : ScoreCall) : Prop :=
  Asks outside call ∧ outside.answer call.accountHash call.counterpartyHash = .failed

/-- The client after the features: it has asked about a transaction with a date. -/
theorem client_of_dated (graph : SanctionsGraphClient) (velocity : VelocityTracker) (outside : Surroundings)
    {call : ScoreCall} {date : Int × Int} (dated : dateOf call = .ok date) :
    (extractFeatures P R graph velocity outside call).2 =
      (graph.hopsToSanctioned (outside.answer call.accountHash call.counterpartyHash)).2 := by
  unfold dateOf at dated
  unfold extractFeatures
  simp only [dated]

/-- Without a date nothing is asked, and there are no features. -/
theorem client_of_undated (graph : SanctionsGraphClient) (velocity : VelocityTracker) (outside : Surroundings)
    {call : ScoreCall} {error : PyError} (undated : dateOf call = .error error) :
    extractFeatures P R graph velocity outside call = (.error error, graph) := by
  unfold dateOf at undated
  unfold extractFeatures
  simp only [undated]

/-- The client stays online until a query fails. -/
theorem available_hopsToSanctioned (client : SanctionsGraphClient) (answer : GraphAnswer) :
    (client.hopsToSanctioned answer).2.available = true ↔ client.available = true ∧ answer ≠ .failed := by
  unfold SanctionsGraphClient.hopsToSanctioned
  by_cases online : client.available = true
  · rw [if_pos online]
    cases answer <;> simp [online]
  · rw [if_neg online]
    simp [online]

theorem available_score (detector : AnomalyDetector) (outside : Surroundings) (call : ScoreCall) :
    (detector.score P R outside call).2.graph.available = true ↔
      detector.graph.available = true ∧ ¬Fails outside call := by
  have entry := detector.recorded_ok_iff outside call
  cases recorded : detector.recorded outside call with
  | error error =>
      have kept : (detector.score P R outside call).2 = detector := by
        unfold AnomalyDetector.score
        rw [recorded]
      have untimed : ¬Fails outside call := by
        rintro ⟨⟨timed, -⟩, -⟩
        rcases entry.mpr timed with ⟨entered, same⟩
        rw [recorded] at same
        cases same
      rw [kept]
      exact ⟨fun online => ⟨online, untimed⟩, And.left⟩
  | ok entered =>
      have timed := entry.mp ⟨entered, recorded⟩
      have graph : entered.graph = detector.graph := by
        rcases bind_eq_ok_iff.mp recorded with ⟨velocity, -, same⟩
        cases same
        rfl
      have after : (detector.score P R outside call).2.graph =
          (extractFeatures P R entered.graph entered.velocity outside call).2 := by
        unfold AnomalyDetector.score
        rw [recorded]
        dsimp only
        rcases extractFeatures P R entered.graph entered.velocity outside call with
          ⟨error | ⟨features, graphFlag⟩, graph⟩
        · rfl
        · dsimp only
          rcases ({ entered with graph } : AnomalyDetector).novelty R features with
            error | ⟨noveltyScore, reconError⟩ <;> rfl
      rw [after, graph]
      cases dated : dateOf call with
      | error error =>
          rw [client_of_undated _ _ _ dated]
          refine ⟨fun online => ⟨online, ?_⟩, And.left⟩
          rintro ⟨⟨-, date, same⟩, -⟩
          rw [dated] at same
          cases same
      | ok date =>
          rw [client_of_dated _ _ _ dated, available_hopsToSanctioned]
          apply and_congr_right
          intro _
          exact ⟨fun answered fails => answered fails.2, fun fine failed => fine ⟨⟨timed, date, dated⟩, failed⟩⟩

/-- A transaction that is scored has been looked up, if the client is online. -/
theorem asks_of_score {detector after : AnomalyDetector} {outside : Surroundings} {call : ScoreCall}
    {verdict : Intent.Verdict} (scored : detector.score P R outside call = (.ok verdict, after)) :
    Asks outside call := by
  rcases score_inversion scored with ⟨entered, features, graphFlag, graph, _, _, recorded, extracted, -⟩
  refine ⟨(detector.recorded_ok_iff outside call).mp ⟨entered, recorded⟩, ?_⟩
  cases dated : dateOf call with
  | error error =>
      rw [client_of_undated _ _ _ dated] at extracted
      cases extracted
  | ok date => exact ⟨date, rfl⟩

/-- What an offline client says, and what an online one says. -/
theorem look_of_offline {client : SanctionsGraphClient} {answer : GraphAnswer}
    (offline : client.available = false ∨ answer = .failed) : (client.hopsToSanctioned answer).1 = lookOf none := by
  unfold SanctionsGraphClient.hopsToSanctioned
  rcases offline with unavailable | rfl
  · rw [unavailable]
    rfl
  · split <;> rfl

theorem look_of_online {client : SanctionsGraphClient} (online : client.available = true) (found : Option Nat) :
    (client.hopsToSanctioned (SanctionsGraph.answerOf found)).1 = lookOf found := by
  unfold SanctionsGraphClient.hopsToSanctioned
  rw [if_pos online]
  cases found <;> rfl

theorem answerOf_ne_failed (found : Option Nat) : SanctionsGraph.answerOf found ≠ .failed := by
  intro failed
  cases found <;> cases failed

theorem tierAnswer_range {accountHash counterpartyHash : PyStr} {hops : Nat}
    (found : tierAnswer P accountHash counterpartyHash = some hops) : 1 ≤ hops ∧ hops ≤ 3 := by
  rcases List.mem_filterMap.mp (List.min?_mem found) with ⟨hash, -, own⟩
  exact tierHops_range own

/-! ## The loop -/

section Loop

variable {L K : Type} {ledgerCalls : LedgerCalls L} {producerCalls : ProducerCalls K} {settings : Settings}
  {consumer : ProverConsumer L AnomalyDetector K} {detector : AnomalyDetector}

/-- The message comes to a query that fails. -/
def Outage (P : Platform) (settings : Settings) (input : Surroundings × Message) : Prop :=
  ∃ call, scoreCall P settings input.2 = some call ∧ Fails input.1 call

/-- A committed record is held and explained as what was found asks for. -/
structure Held (threshold : PyFloat) (record : CommitmentRecord) (found : Option Nat) : Prop where
  listed : record.flagReason = Json.text "OFAC_SANCTION_LIST" ↔ found = some 1
  quarantined : ∀ hops, found = some hops -> (PyFloat.literal (tierScore hops)).ge threshold = true ->
    record.status = .quarantined

variable (ledgerCalls producerCalls settings)

/-- A message keeps the engine, and leaves the client online unless its query fails. -/
theorem available_ingest (present : consumer.detector = some detector) (input : Surroundings × Message) :
    ∃ after, (ingest P R ledgerCalls producerCalls settings consumer input).2.detector = some after ∧
      (after.graph.available = true ↔ detector.graph.available = true ∧ ¬Outage P settings input) := by
  unfold Intent.ingest
  dsimp only
  rw [detector_process, present]
  cases scored : scoreCall P settings input.2 with
  | none =>
      rw [request_of_scoreCall_none P settings _ scored detector]
      refine ⟨detector, rfl, fun online => ⟨online, ?_⟩, And.left⟩
      rintro ⟨call, same, -⟩
      rw [scored] at same
      cases same
  | some call =>
      rw [(request_of_scoreCall P settings _ scored detector).1, (engineCalls_score P R input.1 detector call).1]
      refine ⟨_, rfl, ?_⟩
      rw [available_score]
      apply and_congr_right
      intro _
      apply not_congr
      constructor
      · exact fun fails => ⟨call, scored, fails⟩
      · rintro ⟨other, same, fails⟩
        rw [scored] at same
        cases same
        exact fails

/-- A run leaves the client online exactly if no query of it fails. -/
theorem available_run (present : consumer.detector = some detector) (online : detector.graph.available = true)
    (inputs : List (Surroundings × Message)) :
    ∃ after, (Machine.run (ingest P R ledgerCalls producerCalls settings) consumer inputs).2.detector = some after ∧
      (after.graph.available = true ↔ ∀ input ∈ inputs, ¬Outage P settings input) := by
  induction inputs using List.reverseRecOn with
  | nil => exact ⟨detector, present, fun _ _ member => (List.not_mem_nil member).elim, fun _ => online⟩
  | append_singleton earlier input inductionHypothesis =>
      rcases inductionHypothesis with ⟨before, here, still⟩
      rcases available_ingest (P := P) (R := R) ledgerCalls producerCalls settings here input with
        ⟨after, there, kept⟩
      rw [Machine.run_append]
      refine ⟨after, there, ?_⟩
      rw [kept, still, List.forall_mem_append, List.forall_mem_singleton]

variable {ledgerCalls producerCalls settings}

/-- The call of `add` carries the score and the reason of the verdict. -/
theorem request_of_verdict {D : Type} {detectorCalls : DetectorCalls D} {engine after : D} {message : Message}
    {call : ScoreCall} {verdict : Consumer.Verdict} (scored : scoreCall P settings message = some call)
    (answered : detectorCalls.score engine call = (.ok verdict, after)) :
    ∃ asked scores, (request P detectorCalls settings (some engine) message).1 = some (asked, scores) ∧
      asked.anomalyScore = .float verdict.anomalyScore ∧ asked.flagReason = verdict.flagReason ∧
      asked.threshold = settings.anomalyThreshold := by
  unfold scoreCall at scored
  split at scored
  · cases scored
  · rename_i record decoded
    split at scored
    · cases scored
    · cases scored
    · rename_i verified
      split at scored
      · cases scored
      · rename_i extracted extracts
        split at scored
        · rename_i account counterparty hashed hashed'
          have same := Option.some.inj scored
          unfold request score
          simp only [decoded, verified, extracts, hashed, hashed', bind, Except.bind, pure, Except.pure, same,
            answered]
          exact ⟨_, _, rfl, rfl, rfl, rfl⟩
        · cases scored

/-- What a message commits has been scored by the engine. -/
theorem scored_of_committed {outside : Surroundings} {message : Message} {call : AddCall} {record : CommitmentRecord}
    (present : consumer.detector = some detector)
    (own : committed P ledgerCalls (engineCalls P R outside) settings consumer message = some (call, record)) :
    ∃ asked verdict after, scoreCall P settings message = some asked ∧
      detector.score P R outside asked = (.ok verdict, after) ∧
      record.flagReason = Json.text verdict.flagReason ∧
      (record.status = .quarantined ↔ verdict.anomalyScore.ge settings.anomalyThreshold = true) := by
  unfold committed at own
  rw [present] at own
  cases scored : scoreCall P settings message with
  | none =>
      rw [request_of_scoreCall_none P settings _ scored detector] at own
      cases own
  | some asked =>
      rcases answered : detector.score P R outside asked with ⟨error | verdict, after⟩
      · have raised := (engineCalls_score P R outside detector asked).2 error (by rw [answered])
        rw [(request_of_scoreCall P settings _ scored detector).2 error raised] at own
        cases own
      · have engine : (engineCalls P R outside).score detector asked = (.ok verdict.forConsumer, after) := by
          unfold engineCalls
          dsimp only
          rw [answered]
        rcases request_of_verdict scored engine with ⟨added, scores, requested, score, reason, threshold⟩
        rw [requested] at own
        dsimp only at own
        rcases appended : CommitmentStore.add P consumer.store ledgerCalls added with ⟨error | built, store⟩
        · rw [appended] at own
          cases own
        · rw [appended] at own
          cases own
          rcases status_of_add P consumer.store ledgerCalls appended with ⟨explained, above, compared, status⟩
          rw [score, threshold] at compared
          cases compared
          refine ⟨asked, verdict, after, rfl, answered, explained.trans reason, ?_⟩
          rw [status]
          change _ ↔ verdict.forConsumer.anomalyScore.ge settings.anomalyThreshold = true
          cases verdict.forConsumer.anomalyScore.ge settings.anomalyThreshold <;> simp

/-- As long as no query has failed, every record that is committed is held, and explained by
the sanctions list, as the tiers of its two accounts ask for.  From the first query that
fails, no record is, whatever the graph would answer. -/
theorem held_of_committed (present : consumer.detector = some detector) (online : detector.graph.available = true)
    (before : List (Surroundings × Message)) {input : Surroundings × Message}
    (served : ∃ graph, Loaded P graph ∧ ∀ accountHash counterpartyHash,
      input.1.answer accountHash counterpartyHash = graph.answer accountHash counterpartyHash ∨
        input.1.answer accountHash counterpartyHash = .failed)
    {call : AddCall} {record : CommitmentRecord}
    (own : (ingest P R ledgerCalls producerCalls settings
      (Machine.run (ingest P R ledgerCalls producerCalls settings) consumer before).2 input).1 = some (call, record)) :
    ∃ asked, scoreCall P settings input.2 = some asked ∧
      ((∀ query ∈ before ++ [input], ¬Outage P settings query) ->
        Held settings.anomalyThreshold record (tierAnswer P asked.accountHash asked.counterpartyHash)) ∧
      ((∃ query ∈ before ++ [input], Outage P settings query) -> Held settings.anomalyThreshold record none) := by
  rcases available_run (P := P) (R := R) ledgerCalls producerCalls settings present online before with
    ⟨engine, here, still⟩
  rcases scored_of_committed here own with ⟨asked, verdict, after, scored, answered, reason, status⟩
  have looked := asks_of_score answered
  -- What the client says about the message decides on its record.
  have held : ∀ found, (∀ hops, found = some hops -> 1 ≤ hops ∧ hops ≤ 3) ->
      (engine.graph.hopsToSanctioned (input.1.answer asked.accountHash asked.counterpartyHash)).1 = lookOf found ->
      Held settings.anomalyThreshold record found := by
    intro found range look
    have screened := screened_of_score answered range look
    rw [← reason] at screened
    refine ⟨screened.listed, ?_⟩
    intro hops same above
    exact status.mpr (ge_trans (screened.scored hops same) above)
  refine ⟨asked, scored, ?_, ?_⟩
  · intro fine
    rw [List.forall_mem_append, List.forall_mem_singleton] at fine
    rcases served with ⟨graph, loaded, answers⟩
    apply held _ fun hops found => tierAnswer_range found
    rcases answers asked.accountHash asked.counterpartyHash with same | failed
    · rw [same, answer_of_loaded loaded]
      exact look_of_online (still.mpr fine.1) _
    · exact (fine.2 ⟨asked, scored, looked, failed⟩).elim
  · rintro ⟨query, member, outage⟩
    apply held none fun hops found => by cases found
    apply look_of_offline
    rcases List.mem_append.mp member with earlier | last
    · left
      rw [Bool.eq_false_iff]
      exact fun available => still.mp available query earlier outage
    · right
      rw [List.mem_singleton.mp last] at outage
      rcases outage with ⟨other, same, fails⟩
      rw [scored] at same
      cases same
      exact fails.2

end Loop

/-! ## An account next to the list -/

/-- A transaction of the sample amount by this account. -/
def messageBy (id account : String) : Message where
  value := .obj
    [(PyStr.ofString "txn_id", Json.text id),
      (PyStr.ofString "account_id", Json.text account),
      (PyStr.ofString "amount", .float (.finite 1500)),
      (PyStr.ofString "amount_cents", .int 150000),
      (PyStr.ofString "txn_type", Json.text "RTGS"),
      (PyStr.ofString "timestamp_ns", .int 1700000000000000000)]
  arrivalNs := 1
  commitNs := 1
  finished := .zero

/-- The surroundings of a process that reaches the sample graph. -/
def screeningSurroundings : Surroundings := { sampleSurroundings with answer := sampleGraph.answer }

/-- The sample engine with an online client. -/
def screeningDetector : AnomalyDetector := { Intent.sampleDetector with graph := ⟨true, 0, 0⟩ }

def screeningConsumer : ProverConsumer Unit AnomalyDetector Unit := .new sampleStore (some screeningDetector) ()

/-- An account that is not listed, and then the first account of the first tier. -/
def unlistedMessage : Message := messageBy "TXN-A" "ACC-1"

def listedMessage : Message := messageBy "TXN-B" "ACC-SANC-OFAC-01"

/-- The engine scores the second message after the first. -/
theorem request_listedMessage :
    (request samplePlatform (engineCalls samplePlatform sampleRuntime screeningSurroundings) sampleSettings
      (request samplePlatform (engineCalls samplePlatform sampleRuntime screeningSurroundings) sampleSettings
        (some screeningDetector) unlistedMessage).2 listedMessage).1.isSome = true := by
  decide +kernel

theorem committed_listedMessage {consumer : ProverConsumer Unit AnomalyDetector Unit}
    (detector : consumer.detector = some screeningDetector)
    (keypair : consumer.store.keypair = Lwe.LWEKeyPair.generate samplePlatform Sample.latticeSeed)
    (head : IsDigest consumer.store.head) :
    ∃ call record, (ingest samplePlatform sampleRuntime sampleCalls sampleProducer sampleSettings
      (Machine.run (ingest samplePlatform sampleRuntime sampleCalls sampleProducer sampleSettings) consumer
        [(screeningSurroundings, unlistedMessage)]).2 (screeningSurroundings, listedMessage)).1 =
          some (call, record) := by
  let calls := engineCalls samplePlatform sampleRuntime screeningSurroundings
  rcases keys_process samplePlatform sampleCalls calls sampleProducer sampleSettings consumer unlistedMessage with
    ⟨same, digest⟩
  have engine := detector_process samplePlatform sampleCalls calls sampleProducer sampleSettings consumer
    unlistedMessage
  rw [detector] at engine
  have some := request_listedMessage
  rw [← engine] at some
  rcases asked : request samplePlatform calls sampleSettings (consumer.process samplePlatform sampleCalls calls
    sampleProducer sampleSettings unlistedMessage).2.detector listedMessage with ⟨none | ⟨call, scores⟩, after⟩
  · rw [asked] at some
    cases some
  · rcases request_inversion _ _ _ asked with ⟨record, extracted, decoded, extracts, called⟩
    cases decoded
    cases extracts
    have wellFormed : WellFormed call (PyStr.ofString "TXN-B") := by
      rw [called]
      exact ⟨rfl, ⟨_, rfl⟩, ⟨_, rfl⟩, wellFormed_sampleCall.domain, regular_addCall ..⟩
    rcases (committed_iff samplePlatform sampleCalls calls sampleSettings _
      (rfl : Sample.latticeSeed.length = Lwe.SEED_LEN) (same.trans keypair) (digest head)).mpr
      ⟨call, scores, _, congrArg Prod.fst asked, wellFormed⟩ with ⟨⟨own, record⟩, commits⟩
    exact ⟨own, record, commits⟩

theorem held_of_committed_sample :
    ∃ call record, (ingest samplePlatform sampleRuntime sampleCalls sampleProducer sampleSettings
        (Machine.run (ingest samplePlatform sampleRuntime sampleCalls sampleProducer sampleSettings) screeningConsumer
          [(screeningSurroundings, unlistedMessage)]).2 (screeningSurroundings, listedMessage)).1 =
          some (call, record) ∧
      record.flagReason = Json.text "OFAC_SANCTION_LIST" ∧ record.status = .quarantined := by
  rcases committed_listedMessage (rfl : screeningConsumer.detector = _) rfl (head_sampleStore ▸ isDigest_genesis) with
    ⟨call, record, own⟩
  have served : ∃ graph, Loaded samplePlatform graph ∧ ∀ accountHash counterpartyHash,
      (screeningSurroundings, listedMessage).1.answer accountHash counterpartyHash =
          graph.answer accountHash counterpartyHash ∨
        (screeningSurroundings, listedMessage).1.answer accountHash counterpartyHash = .failed :=
    ⟨sampleGraph, loaded_sampleGraph, fun _ _ => Or.inl rfl⟩
  have present : screeningConsumer.detector = some screeningDetector := rfl
  rcases held_of_committed present rfl [(screeningSurroundings, unlistedMessage)] served own with
    ⟨asked, scored, online, -⟩
  have hashes : asked.accountHash = accountHash samplePlatform "ACC-SANC-OFAC-01" ∧
      asked.counterpartyHash = accountHash samplePlatform "ACC-SANC-OFAC-01" := by
    cases scored
    exact ⟨rfl, rfl⟩
  have found : tierAnswer samplePlatform (accountHash samplePlatform "ACC-SANC-OFAC-01")
      (accountHash samplePlatform "ACC-SANC-OFAC-01") = some 1 := by
    decide +kernel
  have answered : ∀ query ∈ [(screeningSurroundings, unlistedMessage)] ++ [(screeningSurroundings, listedMessage)],
      ¬Outage samplePlatform sampleSettings query := by
    rintro query member ⟨other, -, -, failed⟩
    have reached := answer_of_loaded loaded_sampleGraph other.accountHash other.counterpartyHash
    rcases List.mem_pair.mp member with rfl | rfl
    · exact answerOf_ne_failed _ (reached.symm.trans failed)
    · exact answerOf_ne_failed _ (reached.symm.trans failed)
  have held := online answered
  rw [hashes.1, hashes.2, found] at held
  exact ⟨call, record, own, held.listed.mpr rfl, held.quarantined 1 rfl (by decide +kernel)⟩

end Screening
end ZeroAudit
