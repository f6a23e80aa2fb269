import ZeroAudit.Chain.Admission
import ZeroAudit.Durable.Writes

namespace ZeroAudit
namespace Cassandra

open Foundation Commitment Consumer

/-!
# The same message twice (`prover/consumer.py`, `prover/cassandra_store.py`)

A statement that writes a row writes it under its key, so that writing the same
row again changes nothing.  A message that is delivered again is not the same
row again: its timestamp is taken from the clock and its link from the head
when it is committed.  With the clock moving on, a second delivery leaves the
tables alone exactly if nothing of it reaches them.
-/

variable (P : Platform)

/-! ## Redelivery -/

/-- The same message, with the clock readings of a later delivery. -/
def redelivered (message : Message) (arrivalNs commitNs : Int) (finished : PyFloat) : Message :=
  { message with arrivalNs, commitNs, finished }

/-- The tables hold the same rows, with the same columns. -/
structure SameTables (ledger other : CassandraLedger) : Prop where
  byBucket : ∀ key, ledger.commitmentsByBucket.lookup key = other.commitmentsByBucket.lookup key
  byTxn : ∀ txnId, ledger.commitmentsByTxn.lookup txnId = other.commitmentsByTxn.lookup txnId
  head : ∀ shard, ledger.ledgerHead.lookup shard = other.ledgerHead.lookup shard

/-- Everything in the tables was written before this time. -/
structure Past (nowNs : Int) (ledger : CassandraLedger) : Prop where
  rows : ∀ key columns, ledger.commitmentsByBucket.lookup key = some columns -> key.timestampNs < nowNs
  head : ∀ shard row, ledger.ledgerHead.lookup shard = some row -> row.updatedNs < nowNs

/-- Neither the row nor the head of a commitment gets through. -/
def Unreached (environment : Environment) (ledger : CassandraLedger) : Prop :=
  (ledger.meets environment).takes (.insert .commitmentsByBucket) = false ∧
    (ledger.meets environment).takes .updateHead = false

theorem past_empty (environment : Environment) (nowNs : Int) : Past nowNs (.empty environment) := by
  constructor
  · intro key columns found
    cases found
  · intro shard row found
    cases found

section Persisted

variable {P} {ledger : CassandraLedger} {environment : Environment} {record : CommitmentRecord}
  {txnId : PyStr}

/-- Persisting a record keeps the tables in the past of any later time. -/
theorem past_persisted {nowNs : Int} (past : Past record.timestampNs ledger)
    (named : record.txnId = .str txnId) (order : record.timestampNs ≤ environment.nowNs)
    (later : environment.nowNs < nowNs) :
    Past nowNs ((ledger.meets environment).persisted P record) := by
  rcases (ledger.meets environment).persisted_spec P named with ⟨bucket, -, head, -, -⟩
  constructor
  · intro key columns found
    rw [bucket] at found
    split at found
    · by_cases same : key = keyOf record txnId
      · subst same
        exact order.trans_lt later
      · rw [AList.lookup_insert_ne same] at found
        exact (past.rows key columns found).trans (order.trans_lt later)
    · exact (past.rows key columns found).trans (order.trans_lt later)
  · intro shard row found
    rw [head] at found
    split at found
    · by_cases same : shard = DEFAULT_SHARD
      · subst same
        rw [AList.lookup_insert] at found
        cases found
        exact later
      · rw [AList.lookup_insert_ne same] at found
        exact (past.head shard row found).trans (order.trans_lt later)
    · exact (past.head shard row found).trans (order.trans_lt later)

/-- A record of the present leaves the tables alone exactly if it does not reach
them. -/
theorem sameTables_persisted_iff (past : Past record.timestampNs ledger)
    (named : record.txnId = .str txnId) (order : record.timestampNs ≤ environment.nowNs) :
    SameTables ledger ((ledger.meets environment).persisted P record) ↔ Unreached environment ledger := by
  rcases (ledger.meets environment).persisted_spec P named with ⟨bucket, txn, head, -, -⟩
  unfold Unreached
  constructor
  · intro same
    constructor
    · cases reached : (ledger.meets environment).takes (.insert .commitmentsByBucket) with
      | false => rfl
      | true =>
          have found := same.byBucket (keyOf record txnId)
          rw [bucket, reached, if_pos rfl, AList.lookup_insert] at found
          exact absurd (past.rows _ _ found) (lt_irrefl record.timestampNs)
    · cases reached : (ledger.meets environment).takes .updateHead with
      | false => rfl
      | true =>
          have found := same.head DEFAULT_SHARD
          rw [head, reached, if_pos rfl, AList.lookup_insert] at found
          exact absurd (past.head _ _ found) (not_lt.mpr order)
  · rintro ⟨noRow, noHead⟩
    rw [noRow] at bucket txn
    rw [noHead] at head
    refine ⟨?_, ?_, ?_⟩
    · intro key
      rw [bucket]
      rfl
    · intro id
      rw [txn]
      rfl
    · intro shard
      rw [head]
      rfl

end Persisted

/-! ## One message in an environment -/

section Message

variable {D K : Type} (detectorCalls : DetectorCalls D) (producerCalls : ProducerCalls K)
  (settings : Settings)

/-- The loop when the cluster and the clock of its ledger have changed. -/
def meets (environment : Environment) (consumer : ProverConsumer CassandraLedger D K) :
    ProverConsumer CassandraLedger D K :=
  { consumer with store := inEnvironment environment consumer.store }

/-- The loop after a message that it handles in this environment. -/
def processIn (environment : Environment) (consumer : ProverConsumer CassandraLedger D K)
    (message : Message) : ProverConsumer CassandraLedger D K :=
  ((meets environment consumer).process P (calls P) detectorCalls producerCalls settings message).2

/-- The message commits nothing. -/
def Refused (environment : Environment) (consumer : ProverConsumer CassandraLedger D K)
    (message : Message) : Prop :=
  Consumer.committed P (calls P) detectorCalls settings (meets environment consumer) message = none

/-- With generated keys and a head that is a digest, what is refused is a matter
of the message and of the intent engine: the firewall, the extraction or the
engine stops it, or its id, its account or its amount cannot be committed. -/
theorem refused_iff {environment : Environment} {consumer : ProverConsumer CassandraLedger D K}
    {message : Message} {seed : Bytes} (seedLength : seed.length = Lwe.SEED_LEN)
    (keypair : consumer.store.keypair = Lwe.LWEKeyPair.generate P seed)
    (head : IsDigest consumer.store.head) :
    Refused P detectorCalls settings environment consumer message ↔
      ∀ call scores id, (request P detectorCalls settings consumer.detector message).1 =
        some (call, scores) -> ¬WellFormed call id := by
  have exactly : (∃ own, Consumer.committed P (calls P) detectorCalls settings
      (meets environment consumer) message = some own) ↔ _ :=
    committed_iff P (calls P) detectorCalls settings (meets environment consumer) seedLength keypair head
  unfold Refused
  rw [← not_iff_not, ← ne_eq, Option.ne_none_iff_exists', exactly]
  simp only [not_forall, not_not, exists_prop]
  exact Iff.rfl

/-- The ledger after a message: as it was, or with a record of the present
persisted in it. -/
theorem ledger_processIn (environment : Environment) {consumer : ProverConsumer CassandraLedger D K}
    {ledger : CassandraLedger} (attached : consumer.store.ledger = some ledger) (message : Message) :
    (Refused P detectorCalls settings environment consumer message ∧
      (processIn P detectorCalls producerCalls settings environment consumer message).store.ledger =
        some (ledger.meets environment)) ∨
    ¬Refused P detectorCalls settings environment consumer message ∧
      ∃ record txnId, record.txnId = .str txnId ∧ record.timestampNs = message.commitNs ∧
        (processIn P detectorCalls producerCalls settings environment consumer message).store.ledger =
          some ((ledger.meets environment).persisted P record) := by
  have own : (meets environment consumer).store.ledger = some (ledger.meets environment) := by
    unfold meets inEnvironment
    rw [attached]
    rfl
  unfold Refused processIn
  cases answer : Consumer.committed P (calls P) detectorCalls settings (meets environment consumer) message with
  | none =>
      refine Or.inl ⟨rfl, ?_⟩
      rw [idle_of_committed P (calls P) detectorCalls producerCalls settings _ answer]
      exact own
  | some pair =>
      rcases pair with ⟨call, record⟩
      rcases appended_of_committed P (calls P) detectorCalls producerCalls settings _ answer with
        ⟨appends, store⟩
      rcases appends.named with ⟨txnId, named⟩
      refine Or.inr ⟨by simp, record, txnId, named, ?_, ?_⟩
      · rw [appends.stamp]
        exact nowNs_of_committed P (calls P) detectorCalls settings _ answer
      · rw [store, CassandraLedger.ledger_persist]
        show (meets environment consumer).store.ledger.map _ = _
        rw [own]
        rfl

/-- With the clock moving on, every message keeps the tables in its past. -/
theorem past_processIn {environment : Environment} {consumer : ProverConsumer CassandraLedger D K}
    {ledger : CassandraLedger} (attached : consumer.store.ledger = some ledger) {message : Message}
    (past : Past message.commitNs ledger) (order : message.commitNs ≤ environment.nowNs) {nowNs : Int}
    (later : environment.nowNs < nowNs) :
    ∃ after, (processIn P detectorCalls producerCalls settings environment consumer
      message).store.ledger = some after ∧ Past nowNs after := by
  rcases ledger_processIn P detectorCalls producerCalls settings environment attached message with
    ⟨-, same⟩ | ⟨-, record, txnId, named, stamp, persisted⟩
  · refine ⟨_, same, ?_, ?_⟩
    · intro key columns found
      exact (past.rows key columns found).trans (order.trans_lt later)
    · intro shard row found
      exact (past.head shard row found).trans (order.trans_lt later)
  · rw [← stamp] at past order
    exact ⟨_, persisted, past_persisted past named order later⟩

/-- For every state of the loop with a ledger attached and every message: the
second delivery leaves the tables as the first one did exactly if it is refused,
or if neither its row nor its head gets through. -/
theorem redelivery_idempotent_iff (consumer : ProverConsumer CassandraLedger D K)
    {ledger : CassandraLedger} (attached : consumer.store.ledger = some ledger) (message : Message)
    (past : Past message.commitNs ledger) {first second : Environment}
    (order : message.commitNs ≤ first.nowNs) {arrivalNs commitNs : Int} (between : first.nowNs < commitNs)
    (later : commitNs ≤ second.nowNs) (finished : PyFloat) :
    let once := processIn P detectorCalls producerCalls settings first consumer message
    let again := redelivered message arrivalNs commitNs finished
    let twice := processIn P detectorCalls producerCalls settings second once again
    ∃ ledger ledger', once.store.ledger = some ledger ∧ twice.store.ledger = some ledger' ∧
      (SameTables ledger ledger' ↔
        Refused P detectorCalls settings second once again ∨ Unreached second ledger) := by
  intro once again twice
  rcases past_processIn P detectorCalls producerCalls settings attached past order between with
    ⟨ledgerOnce, afterFirst, pastFirst⟩
  rcases ledger_processIn P detectorCalls producerCalls settings second afterFirst again with
    ⟨refused, same⟩ | ⟨accepted, record, txnId, named, stamp, persisted⟩
  · exact ⟨_, _, afterFirst, same, fun _ => Or.inl refused, fun _ => ⟨fun _ => rfl, fun _ => rfl, fun _ => rfl⟩⟩
  · refine ⟨_, _, afterFirst, persisted, ?_⟩
    have stamped : record.timestampNs = commitNs := stamp
    rw [← stamped] at pastFirst later
    rw [sameTables_persisted_iff pastFirst named later]
    exact ⟨Or.inr, fun either => either.resolve_left accepted⟩

end Message

/-! ## The sample message twice -/

/-- A first process with an empty ledger and without an intent engine. -/
def durableConsumer : ProverConsumer CassandraLedger Unit Unit := .new durableStore none ()

/-- The cluster is out of reach. -/
def unreachable : Environment := ⟨fun _ => true, 3⟩

theorem redelivery_idempotent_iff_sample :
    ∃ ledger ledger', (processIn samplePlatform sampleDetector sampleProducer sampleSettings healthy
        durableConsumer sampleMessage).store.ledger = some ledger ∧
      (processIn samplePlatform sampleDetector sampleProducer sampleSettings unreachable
        (processIn samplePlatform sampleDetector sampleProducer sampleSettings healthy durableConsumer
          sampleMessage) (redelivered sampleMessage 2 2 .zero)).store.ledger = some ledger' ∧
      SameTables ledger ledger' := by
  have order : sampleMessage.commitNs ≤ healthy.nowNs := le_refl (1 : Int)
  have between : healthy.nowNs < 2 := by decide
  have later : (2 : Int) ≤ unreachable.nowNs := by decide
  rcases redelivery_idempotent_iff samplePlatform sampleDetector sampleProducer sampleSettings
    durableConsumer (rfl : durableConsumer.store.ledger = some (.empty healthy)) sampleMessage
    (past_empty healthy 1) order between later .zero with
    ⟨ledger, ledger', once, twice, exactly⟩
  refine ⟨ledger, ledger', once, twice, exactly.mpr (Or.inr ⟨?_, ?_⟩)⟩
  · exact Bool.and_false _
  · exact Bool.and_false _

/-- A process without an intent engine, whose keys were generated and whose head
is a digest. -/
structure Plain (consumer : ProverConsumer CassandraLedger Unit Unit) : Prop where
  detector : consumer.detector = none
  keypair : consumer.store.keypair = Lwe.LWEKeyPair.generate samplePlatform Sample.latticeSeed
  head : IsDigest consumer.store.head

theorem plain_durableConsumer : Plain durableConsumer := ⟨rfl, rfl, isDigest_durableStore⟩

theorem request_redelivered (commitNs : Int) :
    request samplePlatform sampleDetector sampleSettings none
      (redelivered sampleMessage commitNs commitNs .zero) =
        (some ({ sampleCall with nowNs := commitNs }, Scores.unscored), none) := rfl

theorem plain_processIn {consumer : ProverConsumer CassandraLedger Unit Unit} (plain : Plain consumer)
    (environment : Environment) (commitNs : Int) :
    Plain (processIn samplePlatform sampleDetector sampleProducer sampleSettings environment consumer
      (redelivered sampleMessage commitNs commitNs .zero)) := by
  unfold processIn
  rcases keys_process samplePlatform (calls samplePlatform) sampleDetector sampleProducer sampleSettings
    (meets environment consumer) (redelivered sampleMessage commitNs commitNs .zero) with ⟨keypair, head⟩
  refine ⟨?_, keypair.trans plain.keypair, head plain.head⟩
  rw [detector_process]
  show (request samplePlatform sampleDetector sampleSettings consumer.detector _).2 = none
  rw [plain.detector, request_redelivered]

/-- Such a process never refuses the sample message. -/
theorem accepted_of_plain {consumer : ProverConsumer CassandraLedger Unit Unit} (plain : Plain consumer)
    (environment : Environment) (commitNs : Int) :
    ¬Refused samplePlatform sampleDetector sampleSettings environment consumer
      (redelivered sampleMessage commitNs commitNs .zero) := by
  rw [refused_iff samplePlatform sampleDetector sampleSettings
    (rfl : Sample.latticeSeed.length = Lwe.SEED_LEN) plain.keypair plain.head, plain.detector,
    request_redelivered]
  intro refused
  exact refused _ _ Sample.txnId rfl ⟨rfl, wellFormed_sampleCall.idBytes, wellFormed_sampleCall.accountId,
    wellFormed_sampleCall.domain, wellFormed_sampleCall.regular.scores, rfl⟩

/-- The sample message, delivered again when everything works, leaves a second
row for its transaction. -/
theorem redelivery_adds_row :
    ∃ ledger ledger', (processIn samplePlatform sampleDetector sampleProducer sampleSettings healthy
        durableConsumer sampleMessage).store.ledger = some ledger ∧
      (processIn samplePlatform sampleDetector sampleProducer sampleSettings ⟨fun _ => false, 3⟩
        (processIn samplePlatform sampleDetector sampleProducer sampleSettings healthy durableConsumer
          sampleMessage) (redelivered sampleMessage 2 2 .zero)).store.ledger = some ledger' ∧
      ¬SameTables ledger ledger' := by
  have plain : Plain (processIn samplePlatform sampleDetector sampleProducer sampleSettings healthy
    durableConsumer sampleMessage) := plain_processIn plain_durableConsumer healthy 1
  rcases ledger_processIn samplePlatform sampleDetector sampleProducer sampleSettings healthy
    (rfl : durableConsumer.store.ledger = some (.empty healthy)) sampleMessage with
    ⟨refused, -⟩ | ⟨-, own, id, ownNamed, ownStamp, once⟩
  · exact absurd refused (accepted_of_plain plain_durableConsumer healthy 1)
  · have ownStamped : own.timestampNs = 1 := ownStamp
    have past : Past 2 (((CassandraLedger.empty healthy).meets healthy).persisted samplePlatform own) :=
      past_persisted (past_empty healthy _) ownNamed (by rw [ownStamped]; decide) (by decide)
    have available : (((CassandraLedger.empty healthy).meets healthy).persisted samplePlatform
        own).available = true :=
      (((CassandraLedger.empty healthy).meets healthy).persisted_spec samplePlatform ownNamed).2.2.2.1
    generalize processIn samplePlatform sampleDetector sampleProducer sampleSettings healthy
      durableConsumer sampleMessage = consumer at once plain ⊢
    rcases ledger_processIn samplePlatform sampleDetector sampleProducer sampleSettings
      ⟨fun _ => false, 3⟩ once (redelivered sampleMessage 2 2 .zero) with
      ⟨refused, -⟩ | ⟨-, record, txnId, named, stamp, persisted⟩
    · exact absurd refused (accepted_of_plain plain _ 2)
    · refine ⟨_, _, once, persisted, ?_⟩
      have stamped : record.timestampNs = 2 := stamp
      rw [← stamped] at past
      rw [sameTables_persisted_iff past named (by rw [stamped]; decide : record.timestampNs ≤ 3)]
      rintro ⟨noRow, -⟩
      rw [CassandraLedger.takes_meets, available] at noRow
      cases noRow

end Cassandra
end ZeroAudit
