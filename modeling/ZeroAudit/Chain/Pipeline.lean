import ZeroAudit.Chain.Completeness
import ZeroAudit.Chain.History
import ZeroAudit.Prover.Consumer

namespace ZeroAudit
namespace Consumer

open Foundation Signature Commitment Verify

/-!
# From raw messages to verified envelopes

The scores the ingest loop hands to the ledger are floats, so filling in a
record cannot fail once its link was computed: a call of `add` either returns
an honest record or leaves the head where it was.  A message therefore adds one
envelope to the committed topic and moves the head to it, or touches neither.
That is the invariant which makes the published stream a linked stream of
honest exports, whatever the messages are.
-/

variable (P : Platform)

/-! ## One message -/

section Message

variable {L D K : Type} (ledgerCalls : LedgerCalls L) (detectorCalls : DetectorCalls D)
  (producerCalls : ProducerCalls K) (settings : Settings) (consumer : ProverConsumer L D K)

/-- Publishing counts an error, or adds the payload to its topic. -/
theorem publish_cases (topic : Topic) (payload : Dict) :
    (consumer.publish producerCalls topic payload).store = consumer.store ∧
      ((consumer.publish producerCalls topic payload).stats.publishErrors =
          consumer.stats.publishErrors + 1 ∨
        (consumer.publish producerCalls topic payload).stats.publishErrors =
            consumer.stats.publishErrors ∧
          ∀ other, (consumer.publish producerCalls topic payload).delivered other =
            consumer.delivered other ++ if topic = other then [payload] else []) := by
  unfold ProverConsumer.publish
  simp only
  rcases producerCalls.send consumer.producer topic (if topic ∈ chainTopics then some chainKey else none)
    payload with ⟨outcome, producer⟩
  cases outcome with
  | error error => exact ⟨rfl, Or.inl rfl⟩
  | ok value =>
      refine ⟨rfl, Or.inr ⟨rfl, ?_⟩⟩
      intro other
      unfold ProverConsumer.delivered
      rw [List.filter_append, List.map_append]
      by_cases same : topic = other
      · simp [same]
      · simp [same]

/-- Where every send of an announcement succeeds, the committed topic has
grown by the export of the record. -/
theorem announce_spec (record : CommitmentRecord) (scores : Scores) :
    (consumer.announce producerCalls settings record scores).store = consumer.store ∧
      ((consumer.announce producerCalls settings record scores).stats.publishErrors = 0 ->
        consumer.stats.publishErrors = 0 ∧
          (consumer.announce producerCalls settings record scores).delivered .committed =
            consumer.delivered .committed ++ [record.toExportDict]) := by
  unfold ProverConsumer.announce
  simp only
  rcases publish_cases producerCalls consumer .committed record.toExportDict with ⟨store, sent⟩
  rcases publish_cases producerCalls
    (consumer.publish producerCalls .committed record.toExportDict) .anomalies record.toExportDict with
    ⟨laterStore, laterSent⟩
  split
  · refine ⟨laterStore.trans store, ?_⟩
    intro noErrors
    simp only at noErrors
    rcases laterSent with failed | ⟨laterSame, laterTopics⟩
    · omega
    · rcases sent with failed | ⟨same, topics⟩
      · omega
      · refine ⟨by omega, ?_⟩
        have grown := laterTopics .committed
        rw [topics .committed] at grown
        simpa [ProverConsumer.delivered] using grown
  · refine ⟨store, ?_⟩
    intro noErrors
    rcases sent with failed | ⟨same, topics⟩
    · omega
    · refine ⟨by omega, ?_⟩
      simpa using topics .committed

/-- What one message does to the ledger and to the committed topic: nothing, or
it appends one honest record to the ledger and, if no send fails, its export to
the topic. -/
inductive Advance (before after : ProverConsumer L D K) : Prop where
  | idle (store : after.store = before.store) (sent : after.sent = before.sent)
      (errors : after.stats.publishErrors = before.stats.publishErrors)
  | appended (record : CommitmentRecord) (honest : HonestRecord P before.store.signingKey record)
      (prev : record.prevChainHash = before.store.head)
      (chain : record.chainHash = after.store.head)
      (signingKey : after.store.signingKey = before.store.signingKey)
      (keypair : after.store.keypair = before.store.keypair)
      (published : after.stats.publishErrors = 0 -> before.stats.publishErrors = 0 ∧
        after.delivered .committed = before.delivered .committed ++ [record.toExportDict])

theorem advance_handle (txnId : Json) (record : Dict) (message : Message) :
    Advance P consumer (consumer.handle P ledgerCalls detectorCalls producerCalls settings txnId
      record message).2 := by
  unfold ProverConsumer.handle
  cases verifyTransactionSignature P settings.requireSignature record with
  | error error => exact .idle rfl rfl rfl
  | ok accepted =>
      cases accepted with
      | false => exact .idle rfl rfl rfl
      | true =>
          cases extract P record message.arrivalNs with
          | error error => exact .idle rfl rfl rfl
          | ok extracted =>
              simp only
              rcases score P detectorCalls consumer.detector txnId extracted with ⟨scored, detector⟩
              cases scored with
              | error error => exact .idle rfl rfl rfl
              | ok scores =>
                  simp only
                  rcases add_cases P ledgerCalls consumer.store
                    (ProverConsumer.addCall settings txnId extracted scores message.commitNs)
                    ⟨⟨_, _, _, rfl, rfl, rfl⟩, rfl⟩ with
                    ⟨error, added⟩ | ⟨own, store, added, honest, prev, chain, key, keypair⟩
                  · rw [added]
                    exact .idle rfl rfl rfl
                  · rw [added]
                    rcases announce_spec producerCalls settings
                      { consumer with detector, store } own scores with ⟨same, published⟩
                    exact .appended own honest prev
                      (chain.trans (congrArg CommitmentStore.head same).symm)
                      ((congrArg CommitmentStore.signingKey same).trans key)
                      ((congrArg CommitmentStore.keypair same).trans keypair) published

theorem advance_process (message : Message) :
    Advance P consumer
      (consumer.process P ledgerCalls detectorCalls producerCalls settings message).2 := by
  unfold ProverConsumer.process
  cases message.value.asDict with
  | error error => exact .idle rfl rfl rfl
  | ok record =>
      simp only
      have handled := advance_handle P ledgerCalls detectorCalls producerCalls settings consumer
        ((Dict.get record "txn_id" .null).orElse (Dict.get record "transaction_id" (Json.text "unknown")))
        record message
      rcases ran : consumer.handle P ledgerCalls detectorCalls producerCalls settings _ record message
        with ⟨outcome, after⟩
      rw [ran] at handled
      cases outcome with
      | ok value => exact handled
      | error error =>
          -- counting the error touches neither the ledger nor the topics
          cases handled with
          | idle store sent errors => exact .idle store sent errors
          | appended own honest prev chain key keypair published =>
              exact .appended own honest prev chain key keypair published

/-! ## Runs -/

/-- The ledger is a linked chain of honest records from genesis, and the
committed topic holds their exports, unless a send has failed. -/
def Published (key : SigningKey) (consumer : ProverConsumer L D K) : Prop :=
  consumer.store.signingKey = key ∧ ∃ records, (∀ record ∈ records, HonestRecord P key record) ∧
    LinkChain.Linked CommitmentRecord.prevChainHash CommitmentRecord.chainHash GENESIS_HASH records ∧
    LinkChain.tip CommitmentRecord.chainHash GENESIS_HASH records = consumer.store.head ∧
    (consumer.stats.publishErrors = 0 ->
      consumer.delivered .committed = records.map CommitmentRecord.toExportDict)

theorem published_process {key : SigningKey} (message : Message) (published : Published P key consumer) :
    Published P key
      (consumer.process P ledgerCalls detectorCalls producerCalls settings message).2 := by
  rcases published with ⟨rfl, records, honest, linked, tip, topic⟩
  cases advance_process P ledgerCalls detectorCalls producerCalls settings consumer message with
  | idle store sent errors =>
      refine ⟨congrArg CommitmentStore.signingKey store, records, honest, linked, ?_, ?_⟩
      · rw [store, tip]
      · intro noErrors
        rw [errors] at noErrors
        unfold ProverConsumer.delivered
        rw [sent]
        exact topic noErrors
  | appended record own prev chain signingKey keypair grown =>
      refine ⟨signingKey, records ++ [record], ?_, ?_, ?_, ?_⟩
      · intro other member
        rcases List.mem_append.mp member with earlier | last
        · exact honest other earlier
        · rw [List.mem_singleton.mp last]
          exact own
      · rw [LinkChain.linked_append, tip]
        exact ⟨linked, prev, trivial⟩
      · rw [LinkChain.tip_append]
        exact chain
      · intro noErrors
        rcases grown noErrors with ⟨before, after⟩
        rw [after, topic before, List.map_append]
        rfl

end Message

/-- The signing key among the keys a store publishes. -/
theorem publicKeys_signingKey {L : Type} {store : CommitmentStore L} {keys : Dict}
    (fetched : store.publicKeys P = .ok keys) :
    Dict.get keys "ed25519_public_key_b64" .null = .str (store.signingKey.publicKeyB64 P) := by
  unfold CommitmentStore.publicKeys at fetched
  simp only [bind_eq_ok_iff] at fetched
  rcases fetched with ⟨lweKey, -, fingerprint, -, same⟩
  cases same
  simp [Dict.get]

/-- A store with a generated keypair can always publish its keys. -/
theorem publicKeys_of_generate {L : Type} (store : CommitmentStore L) {seed : Bytes}
    (seedLength : seed.length = Lwe.SEED_LEN)
    (keypair : store.keypair = Lwe.LWEKeyPair.generate P seed) :
    ∃ keys, store.publicKeys P = .ok keys := by
  rcases Lwe.LWEKeyPair.parse_publicKeyBytes P seed seedLength with ⟨bytes, serialised, -⟩
  rcases Lwe.fingerprint_spec P seed seedLength with ⟨fingerprint, identified⟩
  have exported : (Lwe.LWEKeyPair.generate P seed).publicKeyB64 = .ok (Base64.encode bytes) := by
    rw [Lwe.LWEKeyPair.publicKeyB64, serialised]
    rfl
  unfold CommitmentStore.publicKeys
  rw [keypair, exported, identified]
  exact ⟨_, rfl⟩

/-- A verifier that has followed a published ledger shows the head of it. -/
theorem chainHead_of_tip {verifier : ExternalVerifier} {key : SigningKey}
    {records : List CommitmentRecord} (honest : ∀ record ∈ records, HonestRecord P key record)
    (tracked : verifier.expectedPrev =
      if records = [] then none else some (LinkChain.tip CommitmentRecord.chainHash GENESIS_HASH records)) :
    verifier.statsSnapshot.chainHead = LinkChain.tip CommitmentRecord.chainHash GENESIS_HASH records := by
  unfold ExternalVerifier.statsSnapshot
  simp only
  rw [tracked]
  rcases List.eq_nil_or_concat' records with rfl | ⟨front, last, rfl⟩
  · rfl
  · have tip : LinkChain.tip CommitmentRecord.chainHash GENESIS_HASH (front ++ [last]) =
        last.chainHash := by
      rw [LinkChain.tip_append]
      rfl
    have digest := (honest last (by simp)).chainHash_isDigest P
    have nonempty : last.chainHash ≠ [] := by
      intro empty
      have length := digest.length
      rw [empty] at length
      cases length
    simp [tip, nonempty]

/-- For every sequence of raw messages handed to a consumer whose ledger starts
from genesis: if every send succeeded, a fresh verifier that holds the
published key reports all five checks of every published envelope as passed,
counts no broken link, and ends at the head of the ledger. -/
theorem published_stream_verifies {L D K : Type} (ledgerCalls : LedgerCalls L)
    (detectorCalls : DetectorCalls D) (producerCalls : ProducerCalls K) (settings : Settings)
    (ledger : Option L) (ringSize : Nat) (keypair : Lwe.LWEKeyPair) (masterKey : Bytes)
    (signingKey : SigningKey) (detector : Option D) (producer : K) (messages : List Message)
    (keys : Dict) (genesis : ledger.bind ledgerCalls.loadHead = none)
    (fetched : (CommitmentStore.new ledgerCalls ledger ringSize keypair masterKey
      signingKey).publicKeys P = .ok keys)
    (sent : (ProverConsumer.processAll P ledgerCalls detectorCalls producerCalls settings
      (.new (.new ledgerCalls ledger ringSize keypair masterKey signingKey) detector producer)
      messages).2.stats.publishErrors = 0) :
    let final := (ProverConsumer.processAll P ledgerCalls detectorCalls producerCalls settings
      (.new (.new ledgerCalls ledger ringSize keypair masterKey signingKey) detector producer)
      messages).2
    let verified := verifyAll P (.new (Dict.get keys "ed25519_public_key_b64" .null))
      (final.delivered .committed)
    (∀ outcome ∈ verified.1, AllPass outcome) ∧ verified.2.stats .chainBroken = 0 ∧
      verified.2.statsSnapshot.chainHead = final.store.head := by
  intro final verified
  have start : Published P signingKey
      (ProverConsumer.new (.new ledgerCalls ledger ringSize keypair masterKey signingKey) detector
        producer) := by
    refine ⟨rfl, [], fun _ member => (List.not_mem_nil member).elim, trivial, ?_, fun _ => rfl⟩
    simp [LinkChain.tip, ProverConsumer.new, CommitmentStore.new, genesis]
  have published : Published P signingKey final := Machine.invariant_run (Published P signingKey)
    (fun state message _ => published_process P ledgerCalls detectorCalls producerCalls settings
      state message) start
  rcases published with ⟨-, records, honest, linked, tip, topic⟩
  have installed : (ExternalVerifier.new (Dict.get keys "ed25519_public_key_b64" .null)).pubkey =
      .str (signingKey.publicKeyB64 P) := publicKeys_signingKey P fetched
  rcases verifyAll_exports P records honest linked installed (Or.inl rfl) with
    ⟨pass, unbroken, tracked⟩
  rw [← topic sent] at pass unbroken tracked
  refine ⟨pass, unbroken, ?_⟩
  rw [← tip]
  exact chainHead_of_tip P honest tracked

/-! ## A closed instance -/

/-- A message that passes every stage is committed and announced. -/
theorem process_of_ok {L D K : Type} (ledgerCalls : LedgerCalls L) (detectorCalls : DetectorCalls D)
    (producerCalls : ProducerCalls K) (settings : Settings) (consumer : ProverConsumer L D K)
    {message : Message} {fields : Dict} {extracted : Extracted} {scores : Scores} {detector : Option D}
    {record : CommitmentRecord} {store : CommitmentStore L} {txnId : Json}
    (decoded : message.value = .obj fields)
    (named : (Dict.get fields "txn_id" .null).orElse
      (Dict.get fields "transaction_id" (Json.text "unknown")) = txnId)
    (firewall : verifyTransactionSignature P settings.requireSignature fields = .ok true)
    (extracts : extract P fields message.arrivalNs = .ok extracted)
    (scored : score P detectorCalls consumer.detector txnId extracted = (.ok scores, detector))
    (added : CommitmentStore.add P consumer.store ledgerCalls
      (ProverConsumer.addCall settings txnId extracted scores message.commitNs) = (.ok record, store)) :
    consumer.process P ledgerCalls detectorCalls producerCalls settings message =
      (.ok (), (ProverConsumer.announce producerCalls settings { consumer with detector, store } record
        scores).finish message.finished) := by
  unfold ProverConsumer.process ProverConsumer.handle
  simp only [decoded, Json.asDict, named, firewall, extracts, scored, added]

/-- A producer whose sends all succeed. -/
def sampleProducer : ProducerCalls Unit where
  send _ _ _ _ := (.ok (), ())

/-- An announcement that cannot fail. -/
theorem announce_sampleProducer {L D : Type} (settings : Settings) (consumer : ProverConsumer L D Unit)
    (record : CommitmentRecord) (scores : Scores) :
    (consumer.announce sampleProducer settings record scores).store = consumer.store ∧
      (consumer.announce sampleProducer settings record scores).detector = consumer.detector ∧
      (consumer.announce sampleProducer settings record scores).stats.publishErrors = consumer.stats.publishErrors ∧
      (consumer.announce sampleProducer settings record scores).delivered .committed =
        consumer.delivered .committed ++ [record.toExportDict] ∧
      (consumer.announce sampleProducer settings record scores).delivered .anomalies =
        consumer.delivered .anomalies ++
          if scores.anomalyScore.ge settings.anomalyThreshold then [record.toExportDict] else [] := by
  unfold ProverConsumer.announce ProverConsumer.publish sampleProducer
  dsimp only
  split
  · refine ⟨rfl, rfl, rfl, ?_, ?_⟩
    · simp [ProverConsumer.delivered]
    · simp [ProverConsumer.delivered]
  · refine ⟨rfl, rfl, rfl, ?_, ?_⟩
    · simp [ProverConsumer.delivered]
    · simp [ProverConsumer.delivered]

/-- No intent engine is installed, so this one is never asked. -/
def sampleDetector : DetectorCalls Unit where
  score own _ := (.error ⟨.valueError, "unused"⟩, own)

def sampleSettings : Settings := ⟨.finite (3 / 4), false⟩

/-- The sample transaction as a payload, under an id of its own. -/
def fieldsFor (id : String) : Dict :=
  [(PyStr.ofString "txn_id", Json.text id),
    (PyStr.ofString "account_id", Json.text "ACC-1"),
    (PyStr.ofString "amount", .float (.finite 1500)),
    (PyStr.ofString "amount_cents", .int 150000),
    (PyStr.ofString "txn_type", Json.text "RTGS"),
    (PyStr.ofString "timestamp_ns", .int 1)]

def messageFor (id : String) : Message := ⟨.obj (fieldsFor id), 1, 1, .zero⟩

def sampleMessage : Message := messageFor "TXN-TEST-0001"

def sampleConsumer : ProverConsumer Unit Unit Unit := .new sampleStore none ()

/-- A consumer without an engine, which can commit every well-formed call. -/
structure Idle (consumer : ProverConsumer Unit Unit Unit) : Prop where
  detector : consumer.detector = none
  keypair : consumer.store.keypair = Lwe.LWEKeyPair.generate samplePlatform Sample.latticeSeed
  head : IsDigest consumer.store.head

theorem idle_sampleConsumer : Idle sampleConsumer := ⟨rfl, rfl, head_sampleStore ▸ isDigest_genesis⟩

/-- The sample transaction is committed and announced, and the next one can be. -/
theorem process_messageFor {consumer : ProverConsumer Unit Unit Unit} (idle : Idle consumer) {settings : Settings}
    (unsigned : settings.requireSignature = false) {id : String} (named : (Json.text id).truthy = true)
    (encodable : ∃ bytes, PyStr.utf8 (PyStr.ofString id) = some bytes) :
    ∃ record after, consumer.process samplePlatform sampleCalls sampleDetector sampleProducer settings
        (messageFor id) = (.ok (), after) ∧
      Idle after ∧ HonestRecord samplePlatform consumer.store.signingKey record ∧ record.timestampNs = 1 ∧
      after.store.signingKey = consumer.store.signingKey ∧
      after.stats.publishErrors = consumer.stats.publishErrors ∧
      after.delivered .committed = consumer.delivered .committed ++ [record.toExportDict] ∧
      after.delivered .anomalies = consumer.delivered .anomalies ++
        if PyFloat.zero.ge settings.anomalyThreshold then [record.toExportDict] else [] := by
  let extracted : Extracted := ⟨150000, Json.text "ACC-1", Json.text "ACC-1", Json.text "RTGS", 1⟩
  let call := ProverConsumer.addCall settings (Json.text id) extracted Scores.unscored 1
  have regular : Regular call := ⟨⟨_, _, _, rfl, rfl, rfl⟩, rfl⟩
  have wellFormed : WellFormed (⟨call, regular⟩ : TypedCall).toAddCall (PyStr.ofString id) :=
    ⟨rfl, encodable, wellFormed_sampleCall.accountId, wellFormed_sampleCall.domain, regular⟩
  have own : (Dict.get (fieldsFor id) "txn_id" .null).orElse
      (Dict.get (fieldsFor id) "transaction_id" (Json.text "unknown")) = Json.text id := if_pos named
  have firewall : verifyTransactionSignature samplePlatform settings.requireSignature (fieldsFor id) = .ok true := by
    rw [unsigned]
    rfl
  have scored : score samplePlatform sampleDetector consumer.detector (Json.text id) extracted =
      (.ok Scores.unscored, none) := by
    rw [idle.detector]
    rfl
  rcases add_wellFormed samplePlatform consumer.store sampleCalls wellFormed
    (rfl : Sample.latticeSeed.length = Lwe.SEED_LEN) idle.keypair idle.head with ⟨record, appends, added⟩
  have processed := process_of_ok samplePlatform sampleCalls sampleDetector sampleProducer settings consumer
    (rfl : (messageFor id).value = .obj (fieldsFor id)) own firewall rfl scored added
  rcases announce_sampleProducer settings
    { consumer with
      detector := none
      store := (consumer.store.advanced record).persist sampleCalls record } record Scores.unscored with
    ⟨store, detector, errors, topic, flagged⟩
  refine ⟨record, _, processed, ⟨detector, ?_, ?_⟩, appends.honest, appends.stamp, ?_, errors, topic, flagged⟩
  · exact (congrArg CommitmentStore.keypair store).trans idle.keypair
  · exact (congrArg CommitmentStore.head store).symm ▸ appends.honest.chainHash_isDigest
  · exact (congrArg CommitmentStore.signingKey store).trans rfl

/-- Two transactions, of which the consumer announces one after the other. -/
def sampleMessages : List Message := [messageFor "TXN-A", messageFor "TXN-B"]

theorem process_sampleMessages {settings : Settings} (unsigned : settings.requireSignature = false) :
    ∃ first second middle final,
      sampleConsumer.process samplePlatform sampleCalls sampleDetector sampleProducer settings (messageFor "TXN-A") =
        (.ok (), middle) ∧
      middle.process samplePlatform sampleCalls sampleDetector sampleProducer settings (messageFor "TXN-B") =
        (.ok (), final) ∧
      (∀ record ∈ [first, second], HonestRecord samplePlatform sampleKey record ∧ record.timestampNs = 1) ∧
      final.stats.publishErrors = 0 ∧ final.delivered .committed = [first, second].map CommitmentRecord.toExportDict ∧
      (PyFloat.zero.ge settings.anomalyThreshold = true ->
        final.delivered .anomalies = [first, second].map CommitmentRecord.toExportDict) := by
  rcases process_messageFor idle_sampleConsumer unsigned (rfl : (Json.text "TXN-A").truthy = true) ⟨_, rfl⟩ with
    ⟨first, middle, ran, idle, honest, stamp, key, errors, topic, flagged⟩
  rcases process_messageFor idle unsigned (rfl : (Json.text "TXN-B").truthy = true) ⟨_, rfl⟩ with
    ⟨second, final, ran', -, honest', stamp', -, errors', topic', flagged'⟩
  refine ⟨first, second, middle, final, ran, ran', ?_, errors'.trans errors, ?_, ?_⟩
  · intro record member
    rcases List.mem_pair.mp member with rfl | rfl
    · exact ⟨honest, stamp⟩
    · rw [key] at honest'
      exact ⟨honest', stamp'⟩
  · rw [topic', topic]
    rfl
  · intro reached
    rw [flagged', flagged, reached]
    rfl

/-- The pipeline of two messages on the sample platform: both envelopes are published, and
they pass. -/
theorem published_stream_verifies_sample :
    ∃ keys first second, (CommitmentStore.new sampleCalls none HOT_RING_SIZE
        (Lwe.LWEKeyPair.generate samplePlatform Sample.latticeSeed) [] sampleKey).publicKeys
          samplePlatform = .ok keys ∧
      (ProverConsumer.processAll samplePlatform sampleCalls sampleDetector sampleProducer sampleSettings
        sampleConsumer sampleMessages).2.delivered .committed = [first, second] ∧
      ∀ outcome ∈ (verifyAll samplePlatform (.new (Dict.get keys "ed25519_public_key_b64" .null))
        [first, second]).1, AllPass outcome := by
  rcases publicKeys_of_generate samplePlatform sampleStore
    (rfl : Sample.latticeSeed.length = Lwe.SEED_LEN) rfl with ⟨keys, fetched⟩
  rcases process_sampleMessages (rfl : sampleSettings.requireSignature = false) with
    ⟨first, second, middle, final, ran, ran', -, noErrors, topic, -⟩
  have handled : (ProverConsumer.processAll samplePlatform sampleCalls sampleDetector sampleProducer sampleSettings
      sampleConsumer sampleMessages).2 = final := by
    rw [ProverConsumer.processAll, sampleMessages, Machine.run_cons, Machine.run_cons, Machine.run_nil, ran, ran']
  rw [← handled] at noErrors topic
  unfold sampleConsumer sampleStore at noErrors topic
  have verified := published_stream_verifies samplePlatform sampleCalls sampleDetector sampleProducer
    sampleSettings none HOT_RING_SIZE (Lwe.LWEKeyPair.generate samplePlatform Sample.latticeSeed) []
    sampleKey none () sampleMessages keys rfl fetched noErrors
  refine ⟨keys, first.toExportDict, second.toExportDict, fetched, topic, ?_⟩
  rw [show [first.toExportDict, second.toExportDict] = [first, second].map CommitmentRecord.toExportDict from rfl,
    ← topic]
  exact verified.1

end Consumer
end ZeroAudit
