import ZeroAudit.Chain.Publication
import ZeroAudit.Intent.Risk

namespace ZeroAudit
namespace Consumer

open Foundation Signature Commitment

/-!
# What the prover escalates

The second topic carries the envelopes of the records whose score reached the threshold.  The
store rounds the score that it writes into a record, and the comparison is with the score
before the rounding, so a reader of the topic finds no score below the rounded threshold.
-/

variable (P : Platform)

/-- The record was quarantined, and its score is at least the rounded threshold. -/
structure Escalated (threshold : PyFloat) (record : CommitmentRecord) : Prop where
  status : record.status = .quarantined
  score : record.anomalyScore.ge (threshold.round 4) = true

/-- Rounding keeps the order of two scores. -/
theorem ge_round {x y : PyFloat} (reached : x.ge y = true) (digits : Nat) :
    (x.round digits).ge (y.round digits) = true := by
  cases x with
  | finite own =>
      cases y with
      | finite other => exact PyFloat.round_mono (of_decide_eq_true reached) digits
      | posInf => cases reached
      | negInf => rfl
      | nan => cases reached
  | posInf =>
      cases y with
      | nan => cases reached
      | _ => rfl
  | negInf =>
      cases y with
      | negInf => rfl
      | _ => cases reached
  | nan => cases reached

theorem ge_chain {x y z : PyFloat} (first : x.ge y = true) (second : y.ge z = true) : x.ge z = true := by
  cases y with
  | finite middle =>
      cases x with
      | finite own => exact Intent.ge_of_le (of_decide_eq_true first) second
      | posInf =>
          cases z with
          | nan => cases second
          | _ => rfl
      | negInf => cases first
      | nan => cases first
  | posInf =>
      cases x with
      | posInf => exact second
      | _ => cases first
  | negInf =>
      cases z with
      | negInf =>
          cases x with
          | nan => cases first
          | _ => rfl
      | _ => cases second
  | nan => cases second

/-- The record of a call has the rounded score of the call. -/
theorem score_of_add {L : Type} {store after : CommitmentStore L} {calls : LedgerCalls L} {call : AddCall}
    {record : CommitmentRecord} {score : PyFloat} (float : call.anomalyScore = .float score)
    (added : CommitmentStore.add P store calls call = (.ok record, after)) :
    record.anomalyScore = score.round 4 := by
  rcases add_inversion P store calls added with ⟨sealed, chainHash, -, built⟩
  unfold CommitmentStore.buildRecord at built
  simp only [bind_eq_ok_iff] at built
  rcases built with ⟨_, -, own, converted, _, -, _, -, same⟩
  rw [float] at converted
  cases converted
  cases same
  rfl

section Run

variable {L D K : Type} (ledgerCalls : LedgerCalls L) (detectorCalls : DetectorCalls D)
  (producerCalls : ProducerCalls K) (settings : Settings) (consumer : ProverConsumer L D K)

/-- A send adds its payload to its topic, or nothing. -/
theorem mem_delivered_publish {topic : Topic} {payload own : Dict}
    (member : own ∈ (consumer.publish producerCalls topic payload).delivered topic) :
    own ∈ consumer.delivered topic ∨ own = payload := by
  unfold ProverConsumer.publish at member
  dsimp only at member
  split at member
  · simpa [ProverConsumer.delivered] using member
  · exact Or.inl member

theorem mem_delivered_announce {record : CommitmentRecord} {scores : Scores} {payload : Dict}
    (member : payload ∈ (consumer.announce producerCalls settings record scores).delivered .anomalies) :
    payload ∈ consumer.delivered .anomalies ∨
      payload = record.toExportDict ∧ scores.anomalyScore.ge settings.anomalyThreshold = true := by
  have other := delivered_publish_other producerCalls consumer (by decide : Topic.committed ≠ .anomalies)
    record.toExportDict
  unfold ProverConsumer.announce at member
  dsimp only at member
  split at member
  · rename_i reached
    rcases mem_delivered_publish producerCalls _ member with old | new
    · rw [other] at old
      exact Or.inl old
    · exact Or.inr ⟨new, reached⟩
  · rw [other] at member
    exact Or.inl member

/-- A call that the loop makes comes to an escalated record if its score reaches the threshold. -/
theorem escalated_of_add {store after : CommitmentStore L} {txnId : Json} {extracted : Extracted} {scores : Scores}
    {commitNs : Int} {record : CommitmentRecord}
    (added : CommitmentStore.add P store ledgerCalls
      (ProverConsumer.addCall settings txnId extracted scores commitNs) = (.ok record, after))
    (reached : scores.anomalyScore.ge settings.anomalyThreshold = true) :
    Escalated settings.anomalyThreshold record := by
  rcases status_of_add P store ledgerCalls added with ⟨-, above, compared, status⟩
  have same : above = true := by
    rw [← reached]
    exact (Except.ok.inj compared).symm
  rw [same, if_pos rfl] at status
  refine ⟨status, ?_⟩
  rw [score_of_add P rfl added]
  exact ge_round reached 4

/-- What a message adds to the topic is the export of what it commits. -/
theorem delivered_process {message : Message} {payload : Dict}
    (member : payload ∈ (consumer.process P ledgerCalls detectorCalls producerCalls settings
      message).2.delivered .anomalies) :
    payload ∈ consumer.delivered .anomalies ∨
      ∃ call record, committed P ledgerCalls detectorCalls settings consumer message = some (call, record) ∧
        payload = record.toExportDict ∧ Escalated settings.anomalyThreshold record := by
  unfold ProverConsumer.process ProverConsumer.handle at member
  unfold committed request effectiveId
  cases decoded : message.value.asDict with
  | error error =>
      rw [decoded] at member
      exact Or.inl member
  | ok record =>
      rw [decoded] at member
      dsimp only at member ⊢
      cases firewall : verifyTransactionSignature P settings.requireSignature record with
      | error error =>
          rw [firewall] at member
          exact Or.inl member
      | ok accepted =>
          rw [firewall] at member
          cases accepted with
          | false => exact Or.inl member
          | true =>
              dsimp only at member ⊢
              cases extracts : extract P record message.arrivalNs with
              | error error =>
                  rw [extracts] at member
                  exact Or.inl member
              | ok extracted =>
                  rw [extracts] at member
                  dsimp only at member ⊢
                  rcases scored : score P detectorCalls consumer.detector _ extracted with
                    ⟨error | scores, detector⟩
                  · rw [scored] at member
                    exact Or.inl member
                  · rw [scored] at member
                    dsimp only at member ⊢
                    rcases added : CommitmentStore.add P consumer.store ledgerCalls
                      (ProverConsumer.addCall settings _ extracted scores message.commitNs) with
                      ⟨error | own, store⟩
                    · rw [added] at member
                      exact Or.inl member
                    · rw [added] at member
                      rcases mem_delivered_announce producerCalls settings _ member with old | ⟨new, reached⟩
                      · exact Or.inl old
                      · exact Or.inr ⟨_, own, rfl, new, escalated_of_add P ledgerCalls settings added reached⟩

/-- Every envelope of the topic is the export of an honest record of the ledger that was
escalated. -/
theorem delivered_ingest {messages : List Message} {payload : Dict}
    (member : payload ∈ (Machine.run (ingest P ledgerCalls detectorCalls producerCalls settings) consumer
      messages).2.delivered .anomalies) :
    payload ∈ consumer.delivered .anomalies ∨
      ∃ record ∈ recordsOf (Machine.run (ingest P ledgerCalls detectorCalls producerCalls settings) consumer
        messages).1, payload = record.toExportDict ∧ Escalated settings.anomalyThreshold record := by
  induction messages generalizing consumer with
  | nil => exact Or.inl member
  | cons message rest inductionHypothesis =>
      rw [Machine.run_cons] at member ⊢
      rcases inductionHypothesis _ member with old | ⟨record, listed, new⟩
      · rcases delivered_process P ledgerCalls detectorCalls producerCalls settings consumer old with
          older | ⟨call, record, own, new⟩
        · exact Or.inl older
        · refine Or.inr ⟨record, List.mem_filterMap.mpr ⟨some (call, record), ?_, rfl⟩, new⟩
          exact List.mem_cons.mpr (Or.inl own.symm)
      · refine Or.inr ⟨record, ?_, new⟩
        rcases List.mem_filterMap.mp listed with ⟨answer, among, same⟩
        exact List.mem_filterMap.mpr ⟨answer, List.mem_cons_of_mem _ among, same⟩

end Run

/-! ## Two records without a score -/

/-- A threshold that every score reaches. -/
def escalatingSettings : Settings := ⟨.zero, false⟩

theorem delivered_sampleMessages :
    ∃ first second, (∀ record ∈ [first, second],
        HonestRecord samplePlatform sampleKey record ∧ record.timestampNs = 1) ∧
      (Machine.run (ingest samplePlatform sampleCalls sampleDetector sampleProducer escalatingSettings)
        sampleConsumer sampleMessages).2.delivered .anomalies = [first, second].map CommitmentRecord.toExportDict := by
  rcases process_sampleMessages (rfl : escalatingSettings.requireSignature = false) with
    ⟨first, second, middle, final, ran, ran', honest, -, -, flagged⟩
  refine ⟨first, second, honest, ?_⟩
  rw [← flagged (by decide), sampleMessages, Machine.run_cons, Machine.run_cons, Machine.run_nil, ingest, ingest, ran,
    ran']

end Consumer
end ZeroAudit
