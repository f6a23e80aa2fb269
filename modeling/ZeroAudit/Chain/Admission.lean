import ZeroAudit.Chain.History
import ZeroAudit.Chain.Pipeline

namespace ZeroAudit
namespace Consumer

open Foundation Signature Commitment

/-!
# What a message commits

A message asks for one call of `add` or for none, and that is a function of the
message and of the intent engine alone.  The store answers with a record or
refuses.  Whatever a message does to the ledger and to the committed topic
follows from the record, so that runs of the ingest loop can be followed record
by record.
-/

variable (P : Platform)

section Message

variable {L D K : Type} (ledgerCalls : LedgerCalls L) (detectorCalls : DetectorCalls D)
  (producerCalls : ProducerCalls K) (settings : Settings) (consumer : ProverConsumer L D K)

/-! ## The call of a message -/

/-- The id under which a message is committed. -/
def effectiveId (record : Dict) : Json :=
  (Dict.get record "txn_id" .null).orElse (Dict.get record "transaction_id" (Json.text "unknown"))

/-- The call of `add` that a message comes to, with its scores, and the engine
after the message. -/
def request (detector : Option D) (message : Message) : Option (AddCall × Scores) × Option D :=
  match message.value.asDict with
  | .error _ => (none, detector)
  | .ok record =>
      match verifyTransactionSignature P settings.requireSignature record with
      | .error _ => (none, detector)
      | .ok false => (none, detector)
      | .ok true =>
          match extract P record message.arrivalNs with
          | .error _ => (none, detector)
          | .ok extracted =>
              match score P detectorCalls detector (effectiveId record) extracted with
              | (.error _, detector) => (none, detector)
              | (.ok scores, detector) =>
                  (some (ProverConsumer.addCall settings (effectiveId record) extracted scores
                    message.commitNs, scores), detector)

/-- The id and the amount of the call are those of the message. -/
theorem request_inversion {detector after : Option D} {message : Message} {call : AddCall}
    {scores : Scores}
    (asked : request P detectorCalls settings detector message = (some (call, scores), after)) :
    ∃ record extracted, message.value.asDict = .ok record ∧
      extract P record message.arrivalNs = .ok extracted ∧
      call = ProverConsumer.addCall settings (effectiveId record) extracted scores message.commitNs := by
  unfold request at asked
  split at asked
  · cases asked
  · rename_i record decoded
    split at asked
    · cases asked
    · cases asked
    · split at asked
      · cases asked
      · rename_i extracted extracts
        split at asked
        · cases asked
        · cases asked
          exact ⟨record, extracted, decoded, extracts, rfl⟩

/-- The scores of the loop are floats, and its signing is taken to go through. -/
theorem regular_addCall (txnId : Json) (extracted : Extracted) (scores : Scores) (commitNs : Int) :
    Regular (ProverConsumer.addCall settings txnId extracted scores commitNs) :=
  ⟨⟨_, _, _, rfl, rfl, rfl⟩, rfl⟩

/-! ## The record of a message -/

/-- The call and the record that a message appends to the ledger, if it does. -/
def committed (message : Message) : Option (AddCall × CommitmentRecord) :=
  match (request P detectorCalls settings consumer.detector message).1 with
  | none => none
  | some (call, _) =>
      match (CommitmentStore.add P consumer.store ledgerCalls call).1 with
      | .error _ => none
      | .ok record => some (call, record)

/-- The send of the record on the committed topic does not raise. -/
def accepts (record : CommitmentRecord) : Bool :=
  match producerCalls.send consumer.producer .committed (some chainKey) record.toExportDict with
  | (.ok _, _) => true
  | (.error _, _) => false

/-- The call and the record of a message that reaches the committed topic. -/
def published (message : Message) : Option (AddCall × CommitmentRecord) :=
  (committed P ledgerCalls detectorCalls settings consumer message).filter fun own =>
    accepts producerCalls consumer own.2

/-! ## Sends -/

/-- A send on one topic leaves the other one alone. -/
theorem delivered_publish_other {topic other : Topic} (different : topic ≠ other) (payload : Dict) :
    (consumer.publish producerCalls topic payload).delivered other = consumer.delivered other := by
  unfold ProverConsumer.publish
  dsimp only
  split
  · unfold ProverConsumer.delivered
    rw [List.filter_append, List.map_append]
    simp [different]
  · rfl

/-- An announcement adds the export of the record to the committed topic, unless
the send raises. -/
theorem delivered_announce (record : CommitmentRecord) (scores : Scores) :
    (consumer.announce producerCalls settings record scores).delivered .committed =
      consumer.delivered .committed ++
        if accepts producerCalls consumer record then [record.toExportDict] else [] := by
  have sent : (consumer.publish producerCalls .committed record.toExportDict).delivered .committed =
      consumer.delivered .committed ++
        if accepts producerCalls consumer record then [record.toExportDict] else [] := by
    unfold ProverConsumer.publish accepts
    rw [if_pos (by decide : Topic.committed ∈ chainTopics)]
    dsimp only
    rcases producerCalls.send consumer.producer .committed (some chainKey) record.toExportDict with
      ⟨error | _, producer⟩
    · simp [ProverConsumer.delivered]
    · simp [ProverConsumer.delivered]
  unfold ProverConsumer.announce
  dsimp only
  split
  · exact (delivered_publish_other producerCalls _ (by decide) _).trans sent
  · exact sent

/-! ## One message -/

/-- The ledger and the committed topic after a message, told by what it commits. -/
inductive Outcome (after : ProverConsumer L D K) : Option (AddCall × CommitmentRecord) -> Prop
  | idle (store : after.store = consumer.store) (sent : after.sent = consumer.sent) :
      Outcome after none
  | appended (call : TypedCall) (record : CommitmentRecord)
      (appends : Appends P consumer.store call.toAddCall record)
      (added : CommitmentStore.add P consumer.store ledgerCalls call.toAddCall = (.ok record, after.store))
      (store : after.store = (consumer.store.advanced record).persist ledgerCalls record)
      (topic : after.delivered .committed = consumer.delivered .committed ++
        if accepts producerCalls consumer record then [record.toExportDict] else []) :
      Outcome after (some (call.toAddCall, record))

/-- A message leaves the ledger and the topic alone, or appends what it commits. -/
theorem outcome_process (message : Message) :
    Outcome P ledgerCalls producerCalls consumer
      (consumer.process P ledgerCalls detectorCalls producerCalls settings message).2
      (committed P ledgerCalls detectorCalls settings consumer message) := by
  unfold ProverConsumer.process ProverConsumer.handle committed request
  cases message.value.asDict with
  | error error => exact .idle rfl rfl
  | ok record =>
      dsimp only
      cases verifyTransactionSignature P settings.requireSignature record with
      | error error => exact .idle rfl rfl
      | ok accepted =>
          cases accepted with
          | false => exact .idle rfl rfl
          | true =>
              cases extract P record message.arrivalNs with
              | error error => exact .idle rfl rfl
              | ok extracted =>
                  dsimp only [effectiveId]
                  rcases score P detectorCalls consumer.detector _ extracted with
                    ⟨error | scores, detector⟩
                  · exact .idle rfl rfl
                  · dsimp only
                    have floats := regular_addCall settings ((Dict.get record "txn_id" .null).orElse
                      (Dict.get record "transaction_id" (Json.text "unknown"))) extracted scores
                      message.commitNs
                    rcases add_spec P consumer.store ledgerCalls ⟨_, floats⟩ with
                      ⟨error, added⟩ | ⟨own, appends, added⟩
                    · dsimp only at added
                      rw [added]
                      exact .idle rfl rfl
                    · dsimp only at added
                      rw [added]
                      have same := (announce_spec producerCalls settings
                        { consumer with detector,
                                        store := (consumer.store.advanced own).persist ledgerCalls own }
                        own scores).1
                      refine .appended ⟨_, floats⟩ own appends (added.trans (congrArg _ same.symm)) same ?_
                      exact delivered_announce producerCalls settings
                        { consumer with detector,
                                        store := (consumer.store.advanced own).persist ledgerCalls own }
                        own scores

/-- Where a message commits nothing, the ledger is as it was. -/
theorem idle_of_committed {message : Message}
    (nothing : committed P ledgerCalls detectorCalls settings consumer message = none) :
    (consumer.process P ledgerCalls detectorCalls producerCalls settings message).2.store =
      consumer.store := by
  have outcome := outcome_process P ledgerCalls detectorCalls producerCalls settings consumer message
  generalize same : committed P ledgerCalls detectorCalls settings consumer message = answer at outcome
  cases outcome with
  | idle store sent => exact store
  | appended call record appends added store topic =>
      rw [nothing] at same
      cases same

/-- Where it commits a record, the ledger has advanced past it. -/
theorem appended_of_committed {message : Message} {call : AddCall} {record : CommitmentRecord}
    (own : committed P ledgerCalls detectorCalls settings consumer message = some (call, record)) :
    Appends P consumer.store call record ∧
      (consumer.process P ledgerCalls detectorCalls producerCalls settings message).2.store =
        (consumer.store.advanced record).persist ledgerCalls record := by
  have outcome := outcome_process P ledgerCalls detectorCalls producerCalls settings consumer message
  generalize same : committed P ledgerCalls detectorCalls settings consumer message = answer at outcome
  cases outcome with
  | idle store sent =>
      rw [own] at same
      cases same
  | appended typed other appends added store topic =>
      rw [own] at same
      cases same
      exact ⟨appends, store⟩

/-- A message keeps the keypair, and a head that is a digest. -/
theorem keys_process (message : Message) :
    (consumer.process P ledgerCalls detectorCalls producerCalls settings message).2.store.keypair =
        consumer.store.keypair ∧
      (IsDigest consumer.store.head ->
        IsDigest (consumer.process P ledgerCalls detectorCalls producerCalls settings
          message).2.store.head) := by
  cases answer : committed P ledgerCalls detectorCalls settings consumer message with
  | none =>
      rw [idle_of_committed P ledgerCalls detectorCalls producerCalls settings consumer answer]
      exact ⟨rfl, fun digest => digest⟩
  | some own =>
      rcases own with ⟨call, record⟩
      rcases appended_of_committed P ledgerCalls detectorCalls producerCalls settings consumer answer with
        ⟨appends, store⟩
      rw [store]
      exact ⟨rfl, fun _ => appends.honest.chainHash_isDigest⟩

/-- The call of a committed record carries the clock of the message. -/
theorem nowNs_of_committed {message : Message} {call : AddCall} {record : CommitmentRecord}
    (own : committed P ledgerCalls detectorCalls settings consumer message = some (call, record)) :
    call.nowNs = message.commitNs := by
  unfold committed at own
  rcases asked : request P detectorCalls settings consumer.detector message with ⟨call' | ⟨call', scores⟩, after⟩
  · rw [asked] at own
    cases own
  · rcases request_inversion P detectorCalls settings asked with ⟨_, _, -, -, same⟩
    rw [asked] at own
    dsimp only at own
    split at own
    · cases own
    · cases own
      rw [same]
      rfl

theorem detector_announce (record : CommitmentRecord) (scores : Scores) :
    (consumer.announce producerCalls settings record scores).detector = consumer.detector := by
  have kept : ∀ (state : ProverConsumer L D K) topic payload,
      (state.publish producerCalls topic payload).detector = state.detector := by
    intro state topic payload
    unfold ProverConsumer.publish
    dsimp only
    split <;> rfl
  unfold ProverConsumer.announce
  dsimp only
  split
  · rw [kept, kept]
  · rw [kept]

/-- The engine after a message is the one the request left. -/
theorem detector_process (message : Message) :
    (consumer.process P ledgerCalls detectorCalls producerCalls settings message).2.detector =
      (request P detectorCalls settings consumer.detector message).2 := by
  unfold ProverConsumer.process ProverConsumer.handle request
  cases message.value.asDict with
  | error error => rfl
  | ok record =>
      dsimp only
      cases verifyTransactionSignature P settings.requireSignature record with
      | error error => rfl
      | ok accepted =>
          cases accepted with
          | false => rfl
          | true =>
              cases extract P record message.arrivalNs with
              | error error => rfl
              | ok extracted =>
                  dsimp only [effectiveId]
                  rcases score P detectorCalls consumer.detector _ extracted with
                    ⟨error | scores, detector⟩
                  · rfl
                  · dsimp only
                    rcases CommitmentStore.add P consumer.store ledgerCalls _ with
                      ⟨error | own, store⟩
                    · rfl
                    · exact detector_announce producerCalls settings { consumer with detector, store } own
                        scores

/-- A message whose call is well-formed is committed. -/
theorem committed_of_wellFormed {message : Message} {call : TypedCall} {scores : Scores} {id : PyStr}
    (asked : (request P detectorCalls settings consumer.detector message).1 =
      some (call.toAddCall, scores))
    (wellFormed : WellFormed call.toAddCall id) {seed : Bytes} (seedLength : seed.length = Lwe.SEED_LEN)
    (keypair : consumer.store.keypair = Lwe.LWEKeyPair.generate P seed)
    (head : IsDigest consumer.store.head) :
    ∃ record, committed P ledgerCalls detectorCalls settings consumer message =
      some (call.toAddCall, record) := by
  rcases add_wellFormed P consumer.store ledgerCalls wellFormed seedLength keypair head with
    ⟨record, -, added⟩
  refine ⟨record, ?_⟩
  unfold committed
  rw [asked]
  simp only [added]

/-- A store with generated keys on a digest commits a message exactly if the
message comes to a well-formed call. -/
theorem committed_iff {message : Message} {seed : Bytes} (seedLength : seed.length = Lwe.SEED_LEN)
    (keypair : consumer.store.keypair = Lwe.LWEKeyPair.generate P seed)
    (head : IsDigest consumer.store.head) :
    (∃ own, committed P ledgerCalls detectorCalls settings consumer message = some own) ↔
      ∃ call scores id, (request P detectorCalls settings consumer.detector message).1 =
        some (call, scores) ∧ WellFormed call id := by
  constructor
  · rintro ⟨⟨call, record⟩, own⟩
    unfold committed at own
    split at own
    · cases own
    · rename_i call' scores asked
      split at own
      · cases own
      · rename_i record' answered
        cases own
        have typed : Regular call := by
          rcases ran : request P detectorCalls settings consumer.detector message with ⟨outcome, after⟩
          rw [ran] at asked
          dsimp only at asked
          rw [asked] at ran
          rcases request_inversion P detectorCalls settings ran with ⟨_, _, -, -, rfl⟩
          exact regular_addCall settings _ _ _ _
        have added : CommitmentStore.add P consumer.store ledgerCalls call =
            (.ok record, (CommitmentStore.add P consumer.store ledgerCalls call).2) := by
          rw [← answered]
        rcases wellFormed_of_add P consumer.store ledgerCalls ⟨call, typed⟩ added with ⟨id, wellFormed⟩
        exact ⟨call, scores, id, asked, wellFormed⟩
  · rintro ⟨call, scores, id, asked, wellFormed⟩
    have typed : (request P detectorCalls settings consumer.detector message).1 =
        some ((⟨call, wellFormed.regular⟩ : TypedCall).toAddCall, scores) := asked
    rcases committed_of_wellFormed P ledgerCalls detectorCalls settings consumer typed wellFormed
      seedLength keypair head with ⟨record, own⟩
    exact ⟨_, own⟩

end Message

/-! ## The sample message -/

theorem request_sampleMessage :
    request samplePlatform sampleDetector sampleSettings none sampleMessage =
      (some (sampleCall, Scores.unscored), none) := rfl

theorem committed_sampleMessage :
    ∃ record, committed samplePlatform sampleCalls sampleDetector sampleSettings sampleConsumer
      sampleMessage = some (sampleCall, record) := by
  have asked : (request samplePlatform sampleDetector sampleSettings sampleConsumer.detector
      sampleMessage).1 =
        some ((⟨sampleCall, wellFormed_sampleCall.regular⟩ : TypedCall).toAddCall, Scores.unscored) :=
    congrArg Prod.fst request_sampleMessage
  exact committed_of_wellFormed samplePlatform sampleCalls sampleDetector sampleSettings sampleConsumer
    asked wellFormed_sampleCall (rfl : Sample.latticeSeed.length = Lwe.SEED_LEN) rfl
    (head_sampleStore ▸ isDigest_genesis)

end Consumer
end ZeroAudit
