import ZeroAudit.Chain.History
import ZeroAudit.Prover.CassandraStore

namespace ZeroAudit
namespace Cassandra

open Foundation Commitment

/-!
# What a write leaves in the tables

A write touches a table only under the key that its columns have there, and
the second table only after the first.  An environment decides how far it
gets.  The record of an `add` always has columns and keys, and all of them are
functions of the record, so that the effect of a whole `add` on the durable
tier can be read off the record and the environment.
-/

variable (P : Platform)

/-! ## Keys and columns -/

/-- The key and the columns a record is written under. -/
def stored (rec : Dict) : Option (BucketKey × Dict) :=
  match row P rec with
  | .error _ => none
  | .ok columns => (bucketKey columns).map fun key => (key, columns)

theorem txnKey_of_bucketKey {columns : Dict} {key : BucketKey} (keyed : bucketKey columns = some key) :
    txnKey columns = some key.txnId := by
  unfold bucketKey at keyed
  split at keyed
  · rename_i named
    cases keyed
    exact named
  · cases keyed

/-! ## One write -/

namespace CassandraLedger

variable (ledger : CassandraLedger)

theorem takes_meets (environment : Environment) (statement : Statement) :
    (ledger.meets environment).takes statement =
      (ledger.available && !environment.fails statement) := rfl

/-- The tables after a write, and everything else the ledger keeps. -/
theorem write_spec (rec : Dict) :
    (ledger.write P rec).2.commitmentsByBucket =
      (match stored P rec with
        | some (key, columns) =>
            if ledger.takes (.insert .commitmentsByBucket) then
              ledger.commitmentsByBucket.insert key columns
            else ledger.commitmentsByBucket
        | none => ledger.commitmentsByBucket) ∧
    (ledger.write P rec).2.commitmentsByTxn =
      (match stored P rec with
        | some (key, columns) =>
            if ledger.takes (.insert .commitmentsByBucket) && ledger.takes (.insert .commitmentsByTxn) then
              ledger.commitmentsByTxn.insert key.txnId columns
            else ledger.commitmentsByTxn
        | none => ledger.commitmentsByTxn) ∧
    (ledger.write P rec).2.ledgerHead = ledger.ledgerHead ∧
    (ledger.write P rec).2.available = ledger.available ∧
    (ledger.write P rec).2.environment = ledger.environment := by
  unfold write stored takes
  cases available : ledger.available with
  | false =>
      simp only [Bool.not_false, if_true, Bool.false_and, Bool.false_eq_true, if_false]
      refine ⟨?_, ?_, trivial, available, trivial⟩
      · split <;> rfl
      · split <;> rfl
  | true =>
      cases computed : row P rec with
      | error error => exact ⟨rfl, rfl, rfl, available, rfl⟩
      | ok columns =>
          simp only [Bool.not_true, Bool.false_eq_true, if_false, Bool.true_and, insert]
          cases first : ledger.environment.fails (.insert .commitmentsByBucket) with
          | true =>
              simp only [if_true, countError, Bool.not_true, Bool.false_and, Bool.false_eq_true, if_false]
              refine ⟨?_, ?_, trivial, available, trivial⟩
              · cases bucketKey columns <;> rfl
              · cases bucketKey columns <;> rfl
          | false =>
              cases keyed : bucketKey columns with
              | none =>
                  simp only [Bool.false_eq_true, if_false, Option.map_none, countError]
                  exact ⟨trivial, trivial, trivial, available, trivial⟩
              | some key =>
                  simp only [Bool.false_eq_true, if_false, Option.map_some, txnKey_of_bucketKey keyed,
                    Bool.not_false, if_true, Bool.true_and]
                  cases second : ledger.environment.fails (.insert .commitmentsByTxn) with
                  | true =>
                      simp only [if_true, countError, Bool.not_true, Bool.false_eq_true, if_false]
                      exact ⟨trivial, trivial, trivial, available, trivial⟩
                  | false =>
                      simp only [Bool.false_eq_true, if_false, Bool.not_false, if_true]
                      exact ⟨trivial, trivial, trivial, available, trivial⟩

/-- A write that can be stored puts its row into the first table and perhaps
into the second one, or reaches neither. -/
theorem write_cases (rec : Dict) :
    ((ledger.write P rec).2.commitmentsByBucket = ledger.commitmentsByBucket ∧
      (ledger.write P rec).2.commitmentsByTxn = ledger.commitmentsByTxn ∧
      ((stored P rec).isSome = true -> ledger.takes (.insert .commitmentsByBucket) = false)) ∨
    ∃ key columns, stored P rec = some (key, columns) ∧
      ledger.takes (.insert .commitmentsByBucket) = true ∧
      (ledger.write P rec).2.commitmentsByBucket = ledger.commitmentsByBucket.insert key columns ∧
      (ledger.write P rec).2.commitmentsByTxn =
        if ledger.takes (.insert .commitmentsByTxn) then
          ledger.commitmentsByTxn.insert key.txnId columns
        else ledger.commitmentsByTxn := by
  rcases ledger.write_spec P rec with ⟨bucket, txn, -⟩
  cases entry : stored P rec with
  | none =>
      rw [entry] at bucket txn
      exact Or.inl ⟨bucket, txn, fun storable => by cases storable⟩
  | some own =>
      rw [entry] at bucket txn
      cases first : ledger.takes (.insert .commitmentsByBucket) with
      | false =>
          rw [first] at bucket txn
          exact Or.inl ⟨bucket, txn, fun _ => rfl⟩
      | true =>
          rw [first] at bucket txn
          exact Or.inr ⟨own.1, own.2, rfl, rfl, bucket, txn⟩

/-- The head after `save_head`, and everything else the ledger keeps. -/
theorem saveHead_spec (seq : Int) (chainHash shard : PyStr) :
    (ledger.saveHead seq chainHash shard).2.commitmentsByBucket = ledger.commitmentsByBucket ∧
    (ledger.saveHead seq chainHash shard).2.commitmentsByTxn = ledger.commitmentsByTxn ∧
    (ledger.saveHead seq chainHash shard).2.ledgerHead =
      (if ledger.takes .updateHead then
        ledger.ledgerHead.insert shard ⟨seq, chainHash, ledger.environment.nowNs⟩
      else ledger.ledgerHead) ∧
    (ledger.saveHead seq chainHash shard).2.available = ledger.available ∧
    (ledger.saveHead seq chainHash shard).2.environment = ledger.environment := by
  unfold saveHead takes
  cases available : ledger.available with
  | false => exact ⟨rfl, rfl, rfl, available, rfl⟩
  | true =>
      cases fails : ledger.environment.fails .updateHead with
      | true => exact ⟨rfl, rfl, rfl, available, rfl⟩
      | false => exact ⟨rfl, rfl, rfl, rfl, rfl⟩

end CassandraLedger

/-! ## The record of an `add` -/

/-- The columns of an exported record. -/
def exportRow (record : CommitmentRecord) : Dict :=
  [(PyStr.ofString "txn_id", record.txnId),
    (PyStr.ofString "bucket", .int (bucketFor record.timestampNs)),
    (PyStr.ofString "timestamp_ns", .int record.timestampNs),
    (PyStr.ofString "seq", .int record.seq),
    (PyStr.ofString "binding_hash", .str record.bindingHash),
    (PyStr.ofString "chain_hash", .str record.chainHash),
    (PyStr.ofString "prev_chain_hash", .str record.prevChainHash),
    (PyStr.ofString "commitment_b64", .str record.commitmentB64),
    (PyStr.ofString "signature_b64", .str record.signatureB64),
    (PyStr.ofString "signing_key_id", .str record.signingKeyId),
    (PyStr.ofString "pubkey_fingerprint", .str record.pubkeyFingerprint),
    (PyStr.ofString "size_kb", .float record.sizeKb),
    (PyStr.ofString "lwe_params", record.lweParams),
    (PyStr.ofString "account_hash", .str record.accountHash),
    (PyStr.ofString "txn_type", record.txnType),
    (PyStr.ofString "status", Json.text record.status.text),
    (PyStr.ofString "anomaly_score", .float record.anomalyScore),
    (PyStr.ofString "flag_reason", record.flagReason),
    (PyStr.ofString "novelty_score", .float record.noveltyScore),
    (PyStr.ofString "typology_score", .float record.typologyScore),
    (PyStr.ofString "pii_bytes", .int record.piiBytes)]

theorem row_export (record : CommitmentRecord) :
    row P record.toExportDict = .ok (exportRow record) := by
  simp [row, CommitmentRecord.toExportDict, Dict.get, Platform.int, Platform.float, bind, Except.bind,
    pure, Except.pure, exportRow]

/-- The key of a record with this id. -/
def keyOf (record : CommitmentRecord) (txnId : PyStr) : BucketKey :=
  ⟨bucketFor record.timestampNs, record.timestampNs, txnId⟩

theorem stored_export {record : CommitmentRecord} {txnId : PyStr} (named : record.txnId = .str txnId) :
    stored P record.toExportDict = some (keyOf record txnId, exportRow record) := by
  unfold stored
  rw [row_export]
  simp [bucketKey, txnKey, exportRow, Dict.get, named, keyOf]

namespace CassandraLedger

/-- The durable part of an `add`: both writes, then the head. -/
def persisted (ledger : CassandraLedger) (record : CommitmentRecord) : CassandraLedger :=
  ((ledger.write P record.toExportDict).2.saveHead record.seq record.chainHash DEFAULT_SHARD).2

theorem ledger_persist (store : CommitmentStore CassandraLedger) (record : CommitmentRecord) :
    (store.persist (calls P) record).ledger =
      store.ledger.map fun ledger => ledger.persisted P record := rfl

/-- The tables after an `add` that returned this record. -/
theorem persisted_spec (ledger : CassandraLedger) {record : CommitmentRecord} {txnId : PyStr}
    (named : record.txnId = .str txnId) :
    (ledger.persisted P record).commitmentsByBucket =
      (if ledger.takes (.insert .commitmentsByBucket) then
        ledger.commitmentsByBucket.insert (keyOf record txnId) (exportRow record)
      else ledger.commitmentsByBucket) ∧
    (ledger.persisted P record).commitmentsByTxn =
      (if ledger.takes (.insert .commitmentsByBucket) && ledger.takes (.insert .commitmentsByTxn) then
        ledger.commitmentsByTxn.insert txnId (exportRow record)
      else ledger.commitmentsByTxn) ∧
    (ledger.persisted P record).ledgerHead =
      (if ledger.takes .updateHead then
        ledger.ledgerHead.insert DEFAULT_SHARD
          ⟨record.seq, record.chainHash, ledger.environment.nowNs⟩
      else ledger.ledgerHead) ∧
    (ledger.persisted P record).available = ledger.available ∧
    (ledger.persisted P record).environment = ledger.environment := by
  unfold persisted
  rcases ledger.write_spec P record.toExportDict with ⟨bucket, txn, head, available, environment⟩
  rcases (ledger.write P record.toExportDict).2.saveHead_spec record.seq record.chainHash DEFAULT_SHARD
    with ⟨sameBucket, sameTxn, newHead, sameAvailable, sameEnvironment⟩
  rw [stored_export P named] at bucket txn
  refine ⟨sameBucket.trans bucket, sameTxn.trans txn, ?_, sameAvailable.trans available,
    sameEnvironment.trans environment⟩
  rw [newHead, head, environment]
  unfold takes
  rw [available, environment]

end CassandraLedger
/-! ## An `add` on the durable tier -/

/-- The store when the cluster and the clock of its ledger have changed. -/
def inEnvironment (environment : Environment) (store : CommitmentStore CassandraLedger) :
    CommitmentStore CassandraLedger :=
  { store with ledger := store.ledger.map fun ledger => ledger.meets environment }

/-- Only the last environment counts. -/
theorem inEnvironment_inEnvironment (first last : Environment) (store : CommitmentStore CassandraLedger) :
    inEnvironment last (inEnvironment first store) = inEnvironment last store := by
  unfold inEnvironment
  simp only [Option.map_map]
  rfl

/-- The store after an `add` that returned this record. -/
def committed (environment : Environment) (store : CommitmentStore CassandraLedger)
    (record : CommitmentRecord) : CommitmentStore CassandraLedger :=
  { store.advanced record with
    ledger := store.ledger.map fun ledger => (ledger.meets environment).persisted P record }

/-- What is appended does not depend on the environment. -/
theorem appends_of_inEnvironment {environment : Environment} {store : CommitmentStore CassandraLedger}
    {call : AddCall} {record : CommitmentRecord}
    (appends : Appends P (inEnvironment environment store) call record) : Appends P store call record :=
  ⟨appends.honest, appends.txnId, appends.prev, appends.seq, appends.stamp⟩

theorem persist_inEnvironment (environment : Environment) (store : CommitmentStore CassandraLedger)
    (record : CommitmentRecord) :
    ((inEnvironment environment store).advanced record).persist (calls P) record =
      committed P environment store record := by
  unfold CommitmentStore.persist committed inEnvironment CommitmentStore.advanced
  simp only [Option.map_map]
  rfl

/-! ## A durable store on the sample platform -/

/-- Every statement goes through. -/
def healthy : Environment := ⟨fun _ => false, 1⟩

/-- A first process over an empty ledger. -/
def durableStore : CommitmentStore CassandraLedger :=
  .new (calls samplePlatform) (some (.empty healthy)) HOT_RING_SIZE
    (Lwe.LWEKeyPair.generate samplePlatform Sample.latticeSeed) [] sampleKey

theorem head_durableStore : durableStore.head = GENESIS_HASH := by
  unfold durableStore
  exact head_new (calls samplePlatform) rfl

theorem isDigest_durableStore : IsDigest durableStore.head := by
  rw [head_durableStore]
  exact isDigest_genesis

end Cassandra
end ZeroAudit
