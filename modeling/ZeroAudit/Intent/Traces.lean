import ZeroAudit.Chain.Admission
import ZeroAudit.Intent.Decisions
import ZeroAudit.Intent.Velocity

namespace ZeroAudit
namespace Intent

open Foundation Signature Commitment Consumer

/-!
# What a message leaves in the windows

The ingest loop scores a message before it commits it, and the engine enters the
transaction into its windows before it looks at anything else.  A message that
gets this far is counted as a transaction of its account whether it is committed
or not.  One that is stopped before leaves the engine and the ledger as they
were, and all later messages are scored as if it had never come.
-/

variable (P : Platform) (R : Runtime)

/-! ## The windows -/

namespace VelocityTracker

/-- Forgetting accounts without times does not touch the first one that is found with some. -/
theorem lookup_forget {entries : List (PyStr × List ℚ)} {accountHash : PyStr} {times : List ℚ}
    (found : Retention.lookup accountHash entries = some times) (kept : times ≠ []) (count : Nat) :
    Retention.lookup accountHash
      ((entries.take count).filter (fun entry => !entry.2.isEmpty) ++ entries.drop count) = some times := by
  induction entries generalizing count with
  | nil => cases found
  | cons entry rest inductionHypothesis =>
      cases count with
      | zero => exact found
      | succ count =>
          unfold Retention.lookup at found inductionHypothesis ⊢
          rw [List.take_succ_cons, List.drop_succ_cons]
          by_cases same : entry.1 = accountHash
          · rw [List.find?_cons_of_pos (by simpa using same)] at found
            cases found
            rw [List.filter_cons_of_pos (by simpa using kept), List.cons_append,
              List.find?_cons_of_pos (by simpa using same)]
            rfl
          · rw [List.find?_cons_of_neg (by simpa using same)] at found
            have later := inductionHypothesis found count
            cases empty : entry.2.isEmpty with
            | true => rw [List.filter_cons_of_neg (by simp [empty]), later]
            | false =>
                rw [List.filter_cons_of_pos (by simp [empty]), List.cons_append,
                  List.find?_cons_of_neg (by simpa using same), later]

/-- Recording a transaction leaves a trace. -/
theorem record_ne {tracker after : VelocityTracker} {accountHash : PyStr} {timestampNs nowNs : Int}
    (recorded : tracker.record accountHash timestampNs nowNs = .ok after) : after ≠ tracker := by
  unfold record at recorded
  simp only [bind_eq_ok_iff] at recorded
  rcases recorded with ⟨time, -, built⟩
  have atOrBelow := cutoff_le tracker.window
  have changed := SlidingQueue.push_ne atOrBelow (tracker.timesOf accountHash) time
  have filled := SlidingQueue.push_ne_nil atOrBelow (tracker.timesOf accountHash) time
  unfold SlidingQueue.push cutoff at changed filled
  generalize (tracker.timesOf accountHash ++ [time]).dropWhile
    (fun other => decide (other < time - tracker.window)) = kept at built changed filled
  have found : Retention.lookup accountHash (assign accountHash kept tracker.times) = some kept := by
    rw [assign_eq_upsert, Retention.lookup_upsert, if_pos rfl]
  have times : after.timesOf accountHash = kept := by
    cases built
    rw [timesOf_eq_lookup]
    dsimp only
    split
    · rw [lookup_forget found filled]
      rfl
    · rw [found]
      rfl
  intro same
  rw [same] at times
  exact changed times.symm

/-- It goes through as far as its time can be converted. -/
theorem record_ok_iff (tracker : VelocityTracker) (accountHash : PyStr) (timestampNs nowNs : Int) :
    (∃ after, tracker.record accountHash timestampNs nowNs = .ok after) ↔
      ∃ time, seconds (if timestampNs = 0 then nowNs else timestampNs) = .ok time := by
  unfold record
  cases seconds (if timestampNs = 0 then nowNs else timestampNs) with
  | error error => simp [bind, Except.bind]
  | ok time => simp [bind, Except.bind, pure, Except.pure]

end VelocityTracker

/-- What the engine remembers of the transactions, where there is an engine. -/
def windows (detector : Option AnomalyDetector) : Option (VelocityTracker × BenfordMonitor) :=
  detector.map fun own => (own.velocity, own.benford)

namespace AnomalyDetector

/-- A call of `score` leaves the windows that the entry made, or the engine as it was. -/
theorem windows_score (detector : AnomalyDetector) (outside : Surroundings) (call : ScoreCall) :
    (∃ error, detector.recorded outside call = .error error ∧
        (detector.score P R outside call).1 = .error error ∧
        (detector.score P R outside call).2 = detector) ∨
      ∃ entered, detector.recorded outside call = .ok entered ∧
        windows (some (detector.score P R outside call).2) = windows (some entered) := by
  unfold score
  cases detector.recorded outside call with
  | error error => exact Or.inl ⟨error, rfl, rfl, rfl⟩
  | ok entered =>
      refine Or.inr ⟨entered, rfl, ?_⟩
      dsimp only
      rcases extractFeatures P R entered.graph entered.velocity outside call with
        ⟨error | ⟨features, graphFlag⟩, graph⟩
      · rfl
      · dsimp only
        rcases ({ entered with graph } : AnomalyDetector).novelty R features with
          error | ⟨noveltyScore, reconError⟩ <;> rfl

/-- A time that is no date raises. -/
theorem score_undated (detector : AnomalyDetector) (outside : Surroundings) {call : ScoreCall} {time : ℚ}
    {error : PyError} (converted : seconds call.timestampNs = .ok time)
    (undated : fromTimestamp time = .error error) :
    ∃ error, (detector.score P R outside call).1 = .error error := by
  unfold score
  cases detector.recorded outside call with
  | error error => exact ⟨error, rfl⟩
  | ok entered =>
      unfold extractFeatures
      simp only [converted, bind, Except.bind, undated]
      exact ⟨error, rfl⟩

/-- An entered transaction changes the windows. -/
theorem windows_recorded_ne {detector entered : AnomalyDetector} {outside : Surroundings}
    {call : ScoreCall} (recorded : detector.recorded outside call = .ok entered) :
    windows (some entered) ≠ windows (some detector) := by
  unfold AnomalyDetector.recorded at recorded
  simp only [bind_eq_ok_iff] at recorded
  rcases recorded with ⟨velocity, entry, built⟩
  cases built
  intro same
  have pair := Option.some.inj same
  exact VelocityTracker.record_ne entry (congrArg Prod.fst pair)

theorem recorded_ok_iff (detector : AnomalyDetector) (outside : Surroundings) (call : ScoreCall) :
    (∃ entered, detector.recorded outside call = .ok entered) ↔
      ∃ time, seconds (if call.timestampNs = 0 then outside.nowNs else call.timestampNs) = .ok time := by
  rw [← detector.velocity.record_ok_iff call.accountHash call.timestampNs outside.nowNs]
  unfold recorded
  cases detector.velocity.record call.accountHash call.timestampNs outside.nowNs with
  | error error => simp [bind, Except.bind]
  | ok velocity => simp [bind, Except.bind, pure, Except.pure]

end AnomalyDetector

/-! ## The loop with its engine -/

/-- The engine as the loop calls it, in these surroundings. -/
def engineCalls (outside : Surroundings) : DetectorCalls AnomalyDetector where
  score detector call :=
    match detector.score P R outside call with
    | (.error error, after) => (.error error, after)
    | (.ok verdict, after) => (.ok verdict.forConsumer, after)

section Loop

variable {L K : Type} (ledgerCalls : LedgerCalls L) (producerCalls : ProducerCalls K)
  (settings : Settings)

/-- The call of `score` that a message comes to: it is an object, the firewall lets it
pass, it can be extracted, and both of its accounts can be hashed. -/
def scoreCall (message : Message) : Option ScoreCall :=
  match message.value.asDict with
  | .error _ => none
  | .ok record =>
      match verifyTransactionSignature P settings.requireSignature record with
      | .error _ => none
      | .ok false => none
      | .ok true =>
          match extract P record message.arrivalNs with
          | .error _ => none
          | .ok extracted =>
              match extracted.accountId.encode, extracted.counterpartyId.encode with
              | .ok account, .ok counterparty =>
                  some { txnId := effectiveId record
                         accountHash := P.sha3Hex account
                         counterpartyHash := P.sha3Hex counterparty
                         amountCents := extracted.amountCents
                         txnType := extracted.txnType
                         timestampNs := extracted.timestampNs }
              | _, _ => none

/-- Without an engine there is none after a message either. -/
theorem request_none {D : Type} (detectorCalls : DetectorCalls D) (message : Message) :
    (request P detectorCalls settings none message).2 = none := by
  unfold request
  split
  · rfl
  · split
    · rfl
    · rfl
    · split
      · rfl
      · rfl

/-- A message without such a call asks for no commitment where there is an engine. -/
theorem request_of_scoreCall_none {D : Type} (detectorCalls : DetectorCalls D) {message : Message}
    (stopped : scoreCall P settings message = none) (detector : D) :
    request P detectorCalls settings (some detector) message = (none, some detector) := by
  unfold scoreCall at stopped
  unfold request
  cases decoded : message.value.asDict with
  | error error => rfl
  | ok record =>
      simp only [decoded] at stopped ⊢
      cases verified : verifyTransactionSignature P settings.requireSignature record with
      | error error => rfl
      | ok passed =>
          simp only [verified] at stopped ⊢
          cases passed with
          | false => rfl
          | true =>
              dsimp only at stopped ⊢
              cases extracts : extract P record message.arrivalNs with
              | error error => rfl
              | ok extracted =>
                  simp only [extracts] at stopped ⊢
                  unfold score
                  cases account : extracted.accountId.encode with
                  | error error => rfl
                  | ok own =>
                      cases counterparty : extracted.counterpartyId.encode with
                      | error error => rfl
                      | ok other =>
                          rw [account, counterparty] at stopped
                          cases stopped

/-- One with such a call leaves the engine as the call left it, and asks for no commitment
where the call raises. -/
theorem request_of_scoreCall {D : Type} (detectorCalls : DetectorCalls D) {message : Message}
    {call : ScoreCall} (scored : scoreCall P settings message = some call) (detector : D) :
    (request P detectorCalls settings (some detector) message).2 =
        some (detectorCalls.score detector call).2 ∧
      ∀ error, (detectorCalls.score detector call).1 = .error error ->
        (request P detectorCalls settings (some detector) message).1 = none := by
  unfold scoreCall at scored
  split at scored
  · cases scored
  · rename_i record decoded
    split at scored
    · cases scored
    · cases scored
    · rename_i verified
      split at scored
      · cases scored
      · rename_i extracted extracts
        split at scored
        · rename_i account counterparty hashed hashed'
          have asked := Option.some.inj scored
          unfold request score
          simp only [decoded, verified, extracts, hashed, hashed', bind, Except.bind, pure, Except.pure,
            asked]
          rcases detectorCalls.score detector call with ⟨error | verdict, after⟩
          · exact ⟨rfl, fun _ _ => rfl⟩
          · exact ⟨rfl, fun _ raised => by cases raised⟩
        · cases scored

/-! ## What a message leaves behind -/

/-- The message is handed to the windows: it comes to a call of `score`, the time of which
can be converted. -/
def Enters (outside : Surroundings) (message : Message) : Prop :=
  ∃ call, scoreCall P settings message = some call ∧
    ∃ time, seconds (if call.timestampNs = 0 then outside.nowNs else call.timestampNs) = .ok time

/-- A call of the engine through the loop leaves the same engine, and raises as it does. -/
theorem engineCalls_score (outside : Surroundings) (detector : AnomalyDetector) (call : ScoreCall) :
    ((engineCalls P R outside).score detector call).2 = (detector.score P R outside call).2 ∧
      ∀ error, (detector.score P R outside call).1 = .error error ->
        ((engineCalls P R outside).score detector call).1 = .error error := by
  unfold engineCalls
  dsimp only
  rcases detector.score P R outside call with ⟨error | verdict, after⟩
  · exact ⟨rfl, fun _ raised => by cases raised; rfl⟩
  · exact ⟨rfl, fun _ raised => by cases raised⟩

/-- A message that is not handed to the windows leaves the engine as it was, and asks for no
commitment. -/
theorem request_of_not_enters {outside : Surroundings} {message : Message}
    (stopped : ¬Enters P settings outside message) (detector : AnomalyDetector) :
    request P (engineCalls P R outside) settings (some detector) message = (none, some detector) := by
  cases scored : scoreCall P settings message with
  | none => exact request_of_scoreCall_none P settings (engineCalls P R outside) scored detector
  | some call =>
      rcases request_of_scoreCall P settings (engineCalls P R outside) scored detector with
        ⟨after, raises⟩
      rcases engineCalls_score P R outside detector call with ⟨same, through⟩
      rcases detector.windows_score P R outside call with
        ⟨error, -, raised, kept⟩ | ⟨entered, recorded, -⟩
      · rw [same, kept] at after
        exact Prod.ext (raises error (through error raised)) after
      · exact absurd ⟨call, scored, (detector.recorded_ok_iff outside call).mp ⟨entered, recorded⟩⟩ stopped

/-- One that is handed to them leaves them as the entry has made them. -/
theorem windows_of_scoreCall {outside : Surroundings} {message : Message} {call : ScoreCall}
    {detector entered : AnomalyDetector} (scored : scoreCall P settings message = some call)
    (recorded : detector.recorded outside call = .ok entered) :
    windows (request P (engineCalls P R outside) settings (some detector) message).2 =
      windows (some entered) := by
  rw [(request_of_scoreCall P settings (engineCalls P R outside) scored detector).1,
    (engineCalls_score P R outside detector call).1]
  rcases detector.windows_score P R outside call with ⟨error, fails, -⟩ | ⟨other, same, left⟩
  · rw [recorded] at fails
    cases fails
  · rw [recorded] at same
    cases same
    exact left

/-- Handle a message in these surroundings, and answer with the call and the record that it
commits. -/
def ingest (consumer : ProverConsumer L AnomalyDetector K) (input : Surroundings × Message) :
    Option (AddCall × CommitmentRecord) × ProverConsumer L AnomalyDetector K :=
  (committed P ledgerCalls (engineCalls P R input.1) settings consumer input.2,
    (consumer.process P ledgerCalls (engineCalls P R input.1) producerCalls settings input.2).2)

/-- There is an engine, and the message is handed to its windows. -/
def Reaches (consumer : ProverConsumer L AnomalyDetector K) (input : Surroundings × Message) : Prop :=
  consumer.detector.isSome = true ∧ Enters P settings input.1 input.2

/-- What is committed, and by which call, depends on the engine and the ledger alone. -/
theorem ingest_reads (state other : ProverConsumer L AnomalyDetector K) (input : Surroundings × Message)
    (same : (state.detector, state.store) = (other.detector, other.store)) :
    (ingest P R ledgerCalls producerCalls settings state input).1 =
        (ingest P R ledgerCalls producerCalls settings other input).1 ∧
      ((ingest P R ledgerCalls producerCalls settings state input).2.detector,
          (ingest P R ledgerCalls producerCalls settings state input).2.store) =
        ((ingest P R ledgerCalls producerCalls settings other input).2.detector,
          (ingest P R ledgerCalls producerCalls settings other input).2.store) := by
  have engines : state.detector = other.detector := congrArg Prod.fst same
  have stores : state.store = other.store := congrArg Prod.snd same
  have answers : (ingest P R ledgerCalls producerCalls settings state input).1 =
      (ingest P R ledgerCalls producerCalls settings other input).1 := by
    unfold ingest committed
    dsimp only
    rw [engines, stores]
  refine ⟨answers, Prod.ext ?_ ?_⟩
  · unfold ingest
    dsimp only
    rw [detector_process, detector_process, engines]
  · unfold ingest at answers ⊢
    dsimp only at answers ⊢
    cases own : committed P ledgerCalls (engineCalls P R input.1) settings state input.2 with
    | none =>
        rw [own] at answers
        rw [idle_of_committed P ledgerCalls _ producerCalls settings state own,
          idle_of_committed P ledgerCalls _ producerCalls settings other answers.symm, stores]
    | some appended =>
        rcases appended with ⟨call, record⟩
        rw [own] at answers
        rw [(appended_of_committed P ledgerCalls _ producerCalls settings state own).2,
          (appended_of_committed P ledgerCalls _ producerCalls settings other answers.symm).2, stores]

variable {consumer : ProverConsumer L AnomalyDetector K} {input : Surroundings × Message} {call : ScoreCall}
  {detector : AnomalyDetector}

/-- A message for which the engine raises is not committed. -/
theorem uncommitted_of_raised {error : PyError} (present : consumer.detector = some detector)
    (scored : scoreCall P settings input.2 = some call)
    (raised : (detector.score P R input.1 call).1 = .error error) :
    (ingest P R ledgerCalls producerCalls settings consumer input).1 = none := by
  have nothing := (request_of_scoreCall P settings (engineCalls P R input.1) scored detector).2 error
    ((engineCalls_score P R input.1 detector call).2 error raised)
  unfold ingest committed
  dsimp only
  rw [present, nothing]

/-- A message that is handed to the windows leaves them as its entry has made them. -/
theorem windows_ingest {entered : AnomalyDetector} (present : consumer.detector = some detector)
    (scored : scoreCall P settings input.2 = some call)
    (recorded : detector.recorded input.1 call = .ok entered) :
    windows (ingest P R ledgerCalls producerCalls settings consumer input).2.detector =
      windows (some entered) := by
  unfold ingest
  dsimp only
  rw [detector_process, present]
  exact windows_of_scoreCall P R settings scored recorded

/-- A message that commits nothing leaves the ledger as it was.  Where it is handed to the
windows, these are left as its entry has made them, which is never as they were.  Where it
is not, they are as they were, and all later messages are scored and committed as if it
had not come. -/
theorem uncommitted_trace_iff (consumer : ProverConsumer L AnomalyDetector K)
    (input : Surroundings × Message)
    (uncommitted : (ingest P R ledgerCalls producerCalls settings consumer input).1 = none) :
    (ingest P R ledgerCalls producerCalls settings consumer input).2.store = consumer.store ∧
      (windows (ingest P R ledgerCalls producerCalls settings consumer input).2.detector =
          windows consumer.detector ↔ ¬Reaches P settings consumer input) ∧
      (∀ detector call entered, consumer.detector = some detector ->
        scoreCall P settings input.2 = some call -> detector.recorded input.1 call = .ok entered ->
        windows (ingest P R ledgerCalls producerCalls settings consumer input).2.detector =
          windows (some entered)) ∧
      (¬Reaches P settings consumer input -> ∀ later,
        (Machine.run (ingest P R ledgerCalls producerCalls settings)
            (ingest P R ledgerCalls producerCalls settings consumer input).2 later).1 =
          (Machine.run (ingest P R ledgerCalls producerCalls settings) consumer later).1) := by
  have store : (ingest P R ledgerCalls producerCalls settings consumer input).2.store = consumer.store :=
    idle_of_committed P ledgerCalls _ producerCalls settings consumer uncommitted
  have engine : (ingest P R ledgerCalls producerCalls settings consumer input).2.detector =
      (request P (engineCalls P R input.1) settings consumer.detector input.2).2 :=
    detector_process P ledgerCalls _ producerCalls settings consumer input.2
  have kept : ¬Reaches P settings consumer input ->
      (ingest P R ledgerCalls producerCalls settings consumer input).2.detector = consumer.detector := by
    intro stopped
    rw [engine]
    cases present : consumer.detector with
    | none => exact request_none P settings (engineCalls P R input.1) input.2
    | some detector =>
        have outside : ¬Enters P settings input.1 input.2 := by
          intro enters
          exact stopped ⟨by rw [present]; rfl, enters⟩
        rw [request_of_not_enters P R settings outside detector]
  refine ⟨store, ⟨?_, ?_⟩, ?_, ?_⟩
  · intro same reaches
    rcases reaches with ⟨installed, call, scored, time⟩
    rcases Option.isSome_iff_exists.mp installed with ⟨detector, present⟩
    rcases (detector.recorded_ok_iff input.1 call).mpr time with ⟨entered, recorded⟩
    rw [windows_ingest P R ledgerCalls producerCalls settings present scored recorded, present] at same
    exact AnomalyDetector.windows_recorded_ne recorded same
  · intro stopped
    rw [kept stopped]
  · intro detector call entered present scored recorded
    exact windows_ingest P R ledgerCalls producerCalls settings present scored recorded
  · intro stopped later
    exact Machine.answers_of_view (fun own => (own.detector, own.store))
      (ingest_reads P R ledgerCalls producerCalls settings) (Prod.ext (kept stopped) store) later

end Loop

/-! ## A message beyond the calendar -/

/-- The sample transaction, ten to the thirty nanoseconds after the epoch. -/
def lateFields : Dict :=
  [(PyStr.ofString "txn_id", .str Sample.txnId),
    (PyStr.ofString "account_id", Json.text "ACC-1"),
    (PyStr.ofString "amount", .float (.finite 1500)),
    (PyStr.ofString "amount_cents", .int 150000),
    (PyStr.ofString "txn_type", Json.text "RTGS"),
    (PyStr.ofString "timestamp_ns", .int (10 ^ 30))]

def lateInput : Surroundings × Message := (sampleSurroundings, ⟨.obj lateFields, 1, 1, .zero⟩)

def scoringConsumer : ProverConsumer Unit AnomalyDetector Unit :=
  .new sampleStore (some sampleDetector) ()

theorem scoreCall_lateInput :
    ∃ call, scoreCall samplePlatform sampleSettings lateInput.2 = some call ∧
      call.timestampNs = 10 ^ 30 :=
  ⟨_, rfl, rfl⟩

theorem seconds_late : seconds (10 ^ 30) = .ok (10 ^ 21) := by
  unfold seconds PyFloat.ofInt
  rw [if_pos (by decide +kernel)]
  apply congrArg Except.ok
  norm_num

theorem fromTimestamp_late : fromTimestamp (10 ^ 21) = .error ⟨.valueError, "year is out of range"⟩ := by
  unfold fromTimestamp
  have micros : Binary64.roundHalfEven ((10 : ℚ) ^ 21 * 10 ^ 6) = 10 ^ 27 := by
    have whole := Binary64.roundHalfEven_intCast (10 ^ 27)
    rw [← whole]
    congr 1
    norm_num
  rw [micros]
  rfl

theorem reaches_lateInput : Reaches samplePlatform sampleSettings scoringConsumer lateInput := by
  rcases scoreCall_lateInput with ⟨call, scored, late⟩
  refine ⟨rfl, call, scored, 10 ^ 21, ?_⟩
  rw [late]
  exact seconds_late

theorem uncommitted_lateInput :
    (ingest samplePlatform sampleRuntime sampleCalls sampleProducer sampleSettings scoringConsumer
      lateInput).1 = none := by
  rcases scoreCall_lateInput with ⟨call, scored, late⟩
  have converted : seconds call.timestampNs = .ok (10 ^ 21) := by
    rw [late]
    exact seconds_late
  rcases sampleDetector.score_undated samplePlatform sampleRuntime lateInput.1 converted
    fromTimestamp_late with ⟨error, raised⟩
  exact uncommitted_of_raised samplePlatform sampleRuntime sampleCalls sampleProducer sampleSettings
    rfl scored raised

/-- The message is not committed, and is in the windows. -/
theorem late_message_enters_windows :
    (ingest samplePlatform sampleRuntime sampleCalls sampleProducer sampleSettings scoringConsumer
        lateInput).1 = none ∧
      windows (ingest samplePlatform sampleRuntime sampleCalls sampleProducer sampleSettings
        scoringConsumer lateInput).2.detector ≠ windows scoringConsumer.detector := by
  refine ⟨uncommitted_lateInput, ?_⟩
  rcases reaches_lateInput with ⟨-, call, scored, time⟩
  rcases (sampleDetector.recorded_ok_iff lateInput.1 call).mpr time with ⟨entered, recorded⟩
  rw [windows_ingest samplePlatform sampleRuntime sampleCalls sampleProducer sampleSettings
    (rfl : scoringConsumer.detector = some sampleDetector) scored recorded]
  exact AnomalyDetector.windows_recorded_ne recorded

theorem uncommitted_trace_iff_sample :
    (ingest samplePlatform sampleRuntime sampleCalls sampleProducer sampleSettings scoringConsumer
        lateInput).2.store = sampleStore ∧
      ¬(windows (ingest samplePlatform sampleRuntime sampleCalls sampleProducer sampleSettings
          scoringConsumer lateInput).2.detector = windows scoringConsumer.detector) := by
  rcases uncommitted_trace_iff samplePlatform sampleRuntime sampleCalls sampleProducer sampleSettings
    scoringConsumer lateInput uncommitted_lateInput with ⟨store, same, -, -⟩
  exact ⟨store, fun untouched => same.mp untouched reaches_lateInput⟩

end Intent
end ZeroAudit
