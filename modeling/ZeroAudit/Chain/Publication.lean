import ZeroAudit.Chain.Admission

namespace ZeroAudit
namespace Consumer

open Foundation Signature Commitment Verify

/-!
# The ledger and the public topic

The store is ahead of the topic: the head has moved before the envelope is
handed to the producer, and a send that raises is counted and forgotten.  So
the topic holds what the ledger holds exactly as long as no send of a committed
record raises.  From the first one that does, the topic has a gap that nothing
fills.
-/

variable (P : Platform)

section Run

variable {L D K : Type} (ledgerCalls : LedgerCalls L) (detectorCalls : DetectorCalls D)
  (producerCalls : ProducerCalls K) (settings : Settings)

/-! ## Runs -/

/-- One message, answered by what it commits. -/
def ingest (consumer : ProverConsumer L D K) (message : Message) :
    Option (AddCall × CommitmentRecord) × ProverConsumer L D K :=
  (committed P ledgerCalls detectorCalls settings consumer message,
    (consumer.process P ledgerCalls detectorCalls producerCalls settings message).2)

/-- The records that were appended to the ledger, in order. -/
def recordsOf (answers : List (Option (AddCall × CommitmentRecord))) : List CommitmentRecord :=
  answers.filterMap (Option.map Prod.snd)

/-- The topic holds the ledger, and the verifier accepts all of it. -/
structure Faithful (key : SigningKey) (records : List CommitmentRecord) (topic : List Dict) : Prop where
  complete : topic = records.map CommitmentRecord.toExportDict
  accepted : AllVerified (verifyAll P (.new (.str (key.publicKeyB64 P))) topic).1

/-- The send of what the message commits does not raise. -/
def Sends (consumer : ProverConsumer L D K) (message : Message) : Prop :=
  ∀ own, committed P ledgerCalls detectorCalls settings consumer message = some own ->
    accepts producerCalls consumer own.2 = true

/-- The topic grows by what is committed exactly if the send does not raise. -/
theorem delivered_ingest_iff (consumer : ProverConsumer L D K) (message : Message) :
    (ingest P ledgerCalls detectorCalls producerCalls settings consumer message).2.delivered .committed =
        consumer.delivered .committed ++ (recordsOf [(ingest P ledgerCalls detectorCalls producerCalls
          settings consumer message).1]).map CommitmentRecord.toExportDict ↔
      Sends P ledgerCalls detectorCalls producerCalls settings consumer message := by
  unfold ingest Sends
  have outcome := outcome_process P ledgerCalls detectorCalls producerCalls settings consumer message
  generalize committed P ledgerCalls detectorCalls settings consumer message = answer at outcome
  cases outcome with
  | idle store sent =>
      simp [recordsOf, ProverConsumer.delivered, sent]
  | appended call record appends added store topic =>
      rw [topic]
      cases accepted : accepts producerCalls consumer record with
      | true => simp [recordsOf, accepted]
      | false => simp [recordsOf, accepted]

theorem exports_recordsOf (answers : List (Option (AddCall × CommitmentRecord))) :
    answers.flatMap (fun answer => (recordsOf [answer]).map CommitmentRecord.toExportDict) =
      (recordsOf answers).map CommitmentRecord.toExportDict := by
  induction answers with
  | nil => rfl
  | cons answer rest inductionHypothesis =>
      rw [List.flatMap_cons, inductionHypothesis]
      cases answer with
      | none => rfl
      | some own => rfl

/-- After every message the topic has grown by what was committed exactly if no
send of it raises. -/
theorem grows_ingest_iff (consumer : ProverConsumer L D K) (messages : List Message) :
    (∀ seen, seen <+: messages ->
      (Machine.run (ingest P ledgerCalls detectorCalls producerCalls settings) consumer
          seen).2.delivered .committed =
        consumer.delivered .committed ++ (recordsOf (Machine.run (ingest P ledgerCalls detectorCalls
          producerCalls settings) consumer seen).1).map CommitmentRecord.toExportDict) ↔
      Machine.Along (ingest P ledgerCalls detectorCalls producerCalls settings)
        (Sends P ledgerCalls detectorCalls producerCalls settings) consumer messages := by
  have same : Sends P ledgerCalls detectorCalls producerCalls settings =
      fun (consumer : ProverConsumer L D K) message =>
        (ingest P ledgerCalls detectorCalls producerCalls settings consumer message).2.delivered
          .committed = consumer.delivered .committed ++ (recordsOf [(ingest P ledgerCalls detectorCalls
            producerCalls settings consumer message).1]).map CommitmentRecord.toExportDict := by
    funext consumer message
    exact propext (delivered_ingest_iff ..).symm
  rw [same, ← Machine.grows_iff (fun consumer : ProverConsumer L D K => consumer.delivered .committed)
    (fun answer => (recordsOf [answer]).map CommitmentRecord.toExportDict)]
  simp only [exports_recordsOf]

/-- The records a run appends are honest and linked from the head it starts with. -/
theorem linked_ingest (consumer : ProverConsumer L D K) (messages : List Message) :
    LinkChain.Linked CommitmentRecord.prevChainHash CommitmentRecord.chainHash consumer.store.head
        (recordsOf (Machine.run (ingest P ledgerCalls detectorCalls producerCalls settings) consumer
          messages).1) ∧
      ∀ record ∈ recordsOf (Machine.run (ingest P ledgerCalls detectorCalls producerCalls settings)
        consumer messages).1, HonestRecord P consumer.store.signingKey record := by
  induction messages generalizing consumer with
  | nil => exact ⟨trivial, fun _ member => (List.not_mem_nil member).elim⟩
  | cons message rest inductionHypothesis =>
      rcases inductionHypothesis (ingest P ledgerCalls detectorCalls producerCalls settings consumer
        message).2 with ⟨linked, honest⟩
      rw [Machine.run_cons]
      unfold ingest at linked honest ⊢
      have outcome := outcome_process P ledgerCalls detectorCalls producerCalls settings consumer message
      generalize committed P ledgerCalls detectorCalls settings consumer message = answer at outcome ⊢
      cases outcome with
      | idle store sent =>
          rw [store] at linked honest
          exact ⟨linked, honest⟩
      | appended call record appends added store topic =>
          rw [store] at linked honest
          refine ⟨⟨appends.prev, linked⟩, ?_⟩
          show ∀ own ∈ record :: _, _
          rw [List.forall_mem_cons]
          exact ⟨appends.honest, honest⟩

/-- For every sequence of messages and every pattern of sends that raise: after
every message the topic holds the records of the ledger, in order and accepted
by the verifier, exactly if no send of a committed record raises. -/
theorem nothing_missing_iff (store : CommitmentStore L) (detector : Option D) (producer : K)
    (messages : List Message) :
    (∀ seen, seen <+: messages ->
      Faithful P store.signingKey
        (recordsOf (Machine.run (ingest P ledgerCalls detectorCalls producerCalls settings)
          (.new store detector producer) seen).1)
        ((Machine.run (ingest P ledgerCalls detectorCalls producerCalls settings)
          (.new store detector producer) seen).2.delivered .committed)) ↔
      Machine.Along (ingest P ledgerCalls detectorCalls producerCalls settings)
        (Sends P ledgerCalls detectorCalls producerCalls settings) (.new store detector producer)
        messages := by
  rw [← grows_ingest_iff]
  constructor
  · intro faithful seen before
    exact (faithful seen before).complete
  · intro complete seen before
    have whole := complete seen before
    refine ⟨whole, ?_⟩
    rcases linked_ingest P ledgerCalls detectorCalls producerCalls settings
      (.new store detector producer) seen with ⟨linked, honest⟩
    have verified := verifyAll_exports P _ honest linked
      (rfl : (ExternalVerifier.new (.str (store.signingKey.publicKeyB64 P))).pubkey = _) (Or.inl rfl)
    intro outcome member
    rw [whole] at member
    rcases verified.1 outcome member with ⟨report, answered, positive, -⟩
    exact ⟨report, answered, positive⟩

end Run

/-! ## A send that raises -/

/-- A producer whose broker is out of reach. -/
def stuckProducer : ProducerCalls Unit where
  send _ _ _ _ := (.error ⟨.valueError, "Failed to update metadata after 60.0 secs."⟩, ())

/-- The record of the only message is in the ledger and not on the topic. -/
theorem lost_send_leaves_gap :
    ¬∀ seen, seen <+: [sampleMessage] ->
      Faithful samplePlatform sampleStore.signingKey
        (recordsOf (Machine.run (ingest samplePlatform sampleCalls sampleDetector stuckProducer
          sampleSettings) (.new sampleStore none ()) seen).1)
        ((Machine.run (ingest samplePlatform sampleCalls sampleDetector stuckProducer
          sampleSettings) (.new sampleStore none ()) seen).2.delivered .committed) := by
  intro faithful
  have along := (grows_ingest_iff samplePlatform sampleCalls sampleDetector stuckProducer sampleSettings
    (.new sampleStore none ()) [sampleMessage]).mp fun seen before => (faithful seen before).complete
  rcases committed_sampleMessage with ⟨record, own⟩
  have sent := along.1 _ own
  cases sent

end Consumer
end ZeroAudit
