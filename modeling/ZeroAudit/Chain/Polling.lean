import ZeroAudit.Chain.Pipeline

namespace ZeroAudit
namespace Consumer

open Foundation Signature Commitment

/-!
# The poll loop (`ProverConsumer.run`)

Each turn of the loop polls the broker, which answers with the messages of
several partitions, and hands them to `process` one after the other.  There are
two handlers.  The one inside of `process` is entered only after the transaction
id was read from the record, so a value that is no object raises past it into
the one around the turn, which counts one error.  What the poll had brought
besides is not handed over any more, and the position of the group is behind it.
-/

variable (P : Platform)

section Loop

variable {L D K : Type} (ledgerCalls : LedgerCalls L) (detectorCalls : DetectorCalls D)
  (producerCalls : ProducerCalls K) (settings : Settings)

/-- What one poll brings: it raises, or answers with the messages of each partition. -/
abbrev Polled := Except PyError (List (List Message))

namespace ProverConsumer

/-- `_stats["errors"] += 1` -/
def countError (consumer : ProverConsumer L D K) : ProverConsumer L D K :=
  { consumer with stats := { consumer.stats with errors := consumer.stats.errors + 1 } }

/-- The two loops over partitions and messages.  Each message that is handed over is
listed with the consumer it meets. -/
def eachPartition : ProverConsumer L D K -> List (List Message) ->
    List (ProverConsumer L D K × Message) × Except PyError Unit × ProverConsumer L D K
  | consumer, [] => ([], .ok (), consumer)
  | consumer, messages :: rest =>
      match Machine.loop (process P ledgerCalls detectorCalls producerCalls settings) consumer messages with
      | (handed, .error error, after) => (handed, .error error, after)
      | (handed, .ok _, after) =>
          let later := eachPartition after rest
          (handed ++ later.1, later.2)

/-- One turn of the loop. -/
def turn (consumer : ProverConsumer L D K) (polled : Polled) :
    List (ProverConsumer L D K × Message) × ProverConsumer L D K :=
  match polled with
  | .error _ => ([], consumer.countError)
  | .ok partitions =>
      match consumer.eachPartition P ledgerCalls detectorCalls producerCalls settings partitions with
      | (handed, .ok _, after) => (handed, after)
      | (handed, .error _, after) => (handed, after.countError)

/-- The partitions of a poll are one list of messages to the loop. -/
theorem eachPartition_eq_loop (consumer : ProverConsumer L D K) (partitions : List (List Message)) :
    consumer.eachPartition P ledgerCalls detectorCalls producerCalls settings partitions =
      Machine.loop (process P ledgerCalls detectorCalls producerCalls settings) consumer
        partitions.flatten := by
  induction partitions generalizing consumer with
  | nil => rfl
  | cons messages rest inductionHypothesis =>
      rw [List.flatten_cons, Machine.loop_append]
      unfold eachPartition
      rcases Machine.loop (process P ledgerCalls detectorCalls producerCalls settings) consumer messages
        with ⟨handed, _ | _, after⟩
      · rfl
      · dsimp only
        rw [inductionHypothesis after]

theorem turn_ok (consumer : ProverConsumer L D K) (partitions : List (List Message)) :
    consumer.turn P ledgerCalls detectorCalls producerCalls settings (.ok partitions) =
      Machine.guarded (process P ledgerCalls detectorCalls producerCalls settings) countError consumer
        partitions.flatten := by
  unfold turn Machine.guarded
  dsimp only
  rw [eachPartition_eq_loop]
  rcases Machine.loop (process P ledgerCalls detectorCalls producerCalls settings) consumer
    partitions.flatten with ⟨handed, _ | _, after⟩ <;> rfl

end ProverConsumer

/-! ## What a message does to the counters -/

/-- Exactly one of the three counters of messages has gone up, by one. -/
def CountsOne (before after : Stats) : Prop :=
  (after.processed = before.processed + 1 ∧ after.signatureFailures = before.signatureFailures ∧
      after.errors = before.errors) ∨
    (after.processed = before.processed ∧ after.signatureFailures = before.signatureFailures + 1 ∧
      after.errors = before.errors) ∨
    (after.processed = before.processed ∧ after.signatureFailures = before.signatureFailures ∧
      after.errors = before.errors + 1)

/-- The counters of messages are the same. -/
def SameCounts (before after : Stats) : Prop :=
  after.processed = before.processed ∧ after.signatureFailures = before.signatureFailures ∧
    after.errors = before.errors

namespace ProverConsumer

variable (consumer : ProverConsumer L D K)

theorem sameCounts_publish (topic : Topic) (payload : Dict) :
    SameCounts consumer.stats (consumer.publish producerCalls topic payload).stats := by
  unfold publish
  dsimp only
  split <;> exact ⟨rfl, rfl, rfl⟩

theorem sameCounts_announce (record : CommitmentRecord) (scores : Scores) :
    SameCounts consumer.stats (consumer.announce producerCalls settings record scores).stats := by
  have first := consumer.sameCounts_publish producerCalls .committed record.toExportDict
  unfold announce
  dsimp only
  split
  · have second := (consumer.publish producerCalls .committed record.toExportDict).sameCounts_publish
      producerCalls .anomalies record.toExportDict
    exact ⟨second.1.trans first.1, second.2.1.trans first.2.1, second.2.2.trans first.2.2⟩
  · exact first

/-- The body of the handler raises without counting, or counts the message once. -/
theorem handle_counts (txnId : Json) (record : Dict) (message : Message) :
    ((∃ error, (consumer.handle P ledgerCalls detectorCalls producerCalls settings txnId record
        message).1 = .error error) ∧
      SameCounts consumer.stats
        (consumer.handle P ledgerCalls detectorCalls producerCalls settings txnId record message).2.stats) ∨
    ((consumer.handle P ledgerCalls detectorCalls producerCalls settings txnId record message).1 = .ok () ∧
      CountsOne consumer.stats
        (consumer.handle P ledgerCalls detectorCalls producerCalls settings txnId record
          message).2.stats) := by
  unfold handle
  split
  · exact Or.inl ⟨⟨_, rfl⟩, rfl, rfl, rfl⟩
  · exact Or.inr ⟨rfl, Or.inr (Or.inl ⟨rfl, rfl, rfl⟩)⟩
  · split
    · exact Or.inl ⟨⟨_, rfl⟩, rfl, rfl, rfl⟩
    · split
      · exact Or.inl ⟨⟨_, rfl⟩, rfl, rfl, rfl⟩
      · rename_i scores detector _
        dsimp only
        split
        · exact Or.inl ⟨⟨_, rfl⟩, rfl, rfl, rfl⟩
        · rename_i committed store _
          have announced := sameCounts_announce producerCalls settings
            { consumer with detector, store } committed scores
          refine Or.inr ⟨rfl, Or.inl ⟨?_, announced.2.1, announced.2.2⟩⟩
          exact congrArg (· + 1) announced.1

/-- A message raises exactly if its value is no object. -/
theorem process_error_iff (message : Message) :
    (∃ error, (consumer.process P ledgerCalls detectorCalls producerCalls settings message).1 =
      .error error) ↔ ¬∃ fields, message.value = .obj fields := by
  unfold process
  cases message.value with
  | obj fields =>
      simp only [Json.asDict]
      rcases consumer.handle P ledgerCalls detectorCalls producerCalls settings _ fields message with
        ⟨_ | _, after⟩ <;> simp
  | _ => simp [Json.asDict]

/-- One that does not raise counts once. -/
theorem process_counts (message : Message)
    (quiet : (consumer.process P ledgerCalls detectorCalls producerCalls settings message).1 = .ok ()) :
    CountsOne consumer.stats
      (consumer.process P ledgerCalls detectorCalls producerCalls settings message).2.stats := by
  unfold process at quiet ⊢
  split
  · rename_i decoded
    rw [decoded] at quiet
    cases quiet
  · rename_i fields decoded
    dsimp only
    rcases consumer.handle_counts P ledgerCalls detectorCalls producerCalls settings
      ((Dict.get fields "txn_id" .null).orElse (Dict.get fields "transaction_id" (Json.text "unknown")))
      fields message with ⟨⟨error, raised⟩, same⟩ | ⟨passes, counted⟩
    · split
      · rename_i after handled
        rw [handled] at raised
        cases raised
      · rename_i after handled
        rw [handled] at same
        exact Or.inr (Or.inr ⟨same.1, same.2.1, congrArg (· + 1) same.2.2⟩)
    · split
      · rename_i after handled
        rw [handled] at counted
        exact counted
      · rename_i after handled
        rw [handled] at passes
        cases passes

/-- One that raises changes nothing. -/
theorem process_error {message : Message} {error : PyError}
    (raised : (consumer.process P ledgerCalls detectorCalls producerCalls settings message).1 =
      .error error) :
    (consumer.process P ledgerCalls detectorCalls producerCalls settings message).2 = consumer := by
  unfold process at raised ⊢
  split
  · rfl
  · rename_i fields decoded
    rw [decoded] at raised
    dsimp only at raised
    split at raised <;> cases raised

end ProverConsumer

/-! ## A turn -/

/-- Every message of a poll is handed to the handler, and each of them raises exactly one of
the counters from what it was before that message, by one. -/
structure EachCounted (consumer : ProverConsumer L D K) (partitions : List (List Message)) : Prop where
  handed : (consumer.turn P ledgerCalls detectorCalls producerCalls settings
    (.ok partitions)).1.map Prod.snd = partitions.flatten
  counted : List.IsChain CountsOne
    ((consumer.turn P ledgerCalls detectorCalls producerCalls settings (.ok partitions)).1.map
        (fun met => met.1.stats) ++
      [(consumer.turn P ledgerCalls detectorCalls producerCalls settings (.ok partitions)).2.stats])

/-- Of the messages that are handed over, each one counts. -/
theorem isChain_turn (consumer : ProverConsumer L D K) (partitions : List (List Message)) :
    List.IsChain CountsOne
      ((consumer.turn P ledgerCalls detectorCalls producerCalls settings (.ok partitions)).1.map
          (fun met => met.1.stats) ++
        [(consumer.turn P ledgerCalls detectorCalls producerCalls settings (.ok partitions)).2.stats]) := by
  rw [ProverConsumer.turn_ok]
  have chain := Machine.isChain_passed
    (ProverConsumer.process P ledgerCalls detectorCalls producerCalls settings) ProverConsumer.countError
    (fun before after => CountsOne before.stats after.stats)
    (fun own message quiet =>
      own.process_counts P ledgerCalls detectorCalls producerCalls settings message quiet)
    (fun own message error raised => by
      rw [own.process_error P ledgerCalls detectorCalls producerCalls settings raised]
      exact Or.inr (Or.inr ⟨rfl, rfl, rfl⟩))
    consumer partitions.flatten
  have mapped := (List.isChain_map (R := CountsOne) ProverConsumer.stats).mpr chain
  unfold Machine.passed at mapped
  rw [List.map_append, List.map_map] at mapped
  exact mapped

/-- A turn treats every message of its poll exactly if all of them are objects, the last
one apart. -/
theorem eachCounted_iff (consumer : ProverConsumer L D K) (partitions : List (List Message)) :
    EachCounted P ledgerCalls detectorCalls producerCalls settings consumer partitions ↔
      ∀ message ∈ partitions.flatten.dropLast, ∃ fields, message.value = .obj fields := by
  have handed := Machine.handed_guarded_iff
    (ProverConsumer.process P ledgerCalls detectorCalls producerCalls settings) ProverConsumer.countError
    (fun message => ¬∃ fields, message.value = .obj fields)
    (fun own message => own.process_error_iff P ledgerCalls detectorCalls producerCalls settings message)
    consumer partitions.flatten
  rw [← ProverConsumer.turn_ok] at handed
  constructor
  · intro each message member
    exact not_not.mp (handed.mp each.handed message member)
  · intro objects
    constructor
    · apply handed.mpr
      intro message member absent
      exact absent (objects message member)
    · exact isChain_turn P ledgerCalls detectorCalls producerCalls settings consumer partitions

/-- In every run of the loop: all messages of all polls are handed over, and each counts
once, exactly if in every poll all messages but the last are objects. -/
theorem every_message_counted_iff (consumer : ProverConsumer L D K) (polls : List Polled) :
    Machine.Along (ProverConsumer.turn P ledgerCalls detectorCalls producerCalls settings)
        (fun own polled => ∀ partitions, polled = .ok partitions ->
          EachCounted P ledgerCalls detectorCalls producerCalls settings own partitions) consumer polls ↔
      ∀ partitions, Except.ok partitions ∈ polls ->
        ∀ message ∈ partitions.flatten.dropLast, ∃ fields, message.value = .obj fields := by
  simp only [eachCounted_iff]
  rw [Machine.along_inputs_iff]
  constructor
  · intro all partitions member
    exact all (.ok partitions) member partitions rfl
  · intro all polled member partitions same
    exact all partitions (same ▸ member)

end Loop

/-- A null before a sound transaction. -/
def mixedPoll : List (List Message) := [[⟨.null, 1, 1, .zero⟩, sampleMessage]]

/-- The transaction is never handed over. -/
theorem null_skips_transaction :
    ¬Machine.Along
      (ProverConsumer.turn samplePlatform sampleCalls sampleDetector sampleProducer sampleSettings)
      (fun own polled => ∀ partitions, polled = .ok partitions ->
        EachCounted samplePlatform sampleCalls sampleDetector sampleProducer sampleSettings own partitions)
      sampleConsumer [.ok mixedPoll] := by
  intro always
  have each := always.1 mixedPoll rfl
  have handed : [(⟨.null, 1, 1, .zero⟩ : Message)] = [⟨.null, 1, 1, .zero⟩, sampleMessage] := each.handed
  exact absurd (congrArg List.length handed) (by decide)

end Consumer
end ZeroAudit
