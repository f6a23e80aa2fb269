import Mathlib.Data.List.AList
import ZeroAudit.Foundation.JsonText
import ZeroAudit.Prover.Commitment

namespace ZeroAudit
namespace Cassandra

open Foundation Commitment

/-!
# The durable ledger (`prover/cassandra_store.py`)

Three tables hold the ledger: the commitments by day, the commitments by
transaction, and the head of the chain.  A statement that inserts or updates
writes the row of its key, whether there is one or not.  Whether a statement
raises is a matter of the driver and the cluster, so it is read from an
environment, together with the clock; no method lets such an exception out.
A bucket, the text of a UTC day, stands as the number of that day.
-/

variable (P : Platform)

/-! ## Statements and their environment -/

/-- The two tables that hold commitments. -/
inductive Table where
  | commitmentsByBucket
  | commitmentsByTxn
  deriving DecidableEq

/-- The prepared statements. -/
inductive Statement where
  | insert (table : Table)
  | selectByTxn
  | selectByBucket (bucket : Int)
  | updateStatus
  | selectHead
  | updateHead
  deriving DecidableEq

/-- Which statements raise at the moment, and the reading of the clock. -/
structure Environment where
  fails : Statement -> Bool
  nowNs : Int

/-! ## Rows -/

def COLUMNS : List String :=
  ["txn_id", "bucket", "timestamp_ns", "seq", "binding_hash", "chain_hash", "prev_chain_hash",
    "commitment_b64", "signature_b64", "signing_key_id", "pubkey_fingerprint", "size_kb", "lwe_params",
    "account_hash", "txn_type", "status", "anomaly_score", "flag_reason", "novelty_score",
    "typology_score", "pii_bytes"]

/-- Nanoseconds of one day. -/
def DAY_NS : Int := 86400000000000

/-- The seconds of a time, without what follows the point (`modf`). -/
def wholeSeconds (seconds : ℚ) : Int := if seconds < 0 then ⌈seconds⌉ else ⌊seconds⌋

/-- The microseconds of `datetime.fromtimestamp`, which rounds what follows the point. -/
def microseconds (seconds : ℚ) : Int :=
  wholeSeconds seconds * 10 ^ 6 +
    Binary64.roundHalfEven (Binary64.nearest ((seconds - wholeSeconds seconds) * 10 ^ 6))

/-- UTC day partition key.  The nanoseconds and the quotient are doubles, so that the last
moments of a day count to the next one.  A time outside the years of a datetime, which
raises, has a day like any other. -/
def bucketFor (timestampNs : Int) : Int :=
  microseconds (Binary64.nearest (Binary64.nearest timestampNs / 10 ^ 9)) / (DAY_NS / 1000)

/-- The columns of a record.  The text of `lwe_params` is kept as the document
it is written from and read back to. -/
def row (rec : Dict) : Except PyError Dict := do
  let ts ← P.int (Dict.get rec "timestamp_ns" (.int 0))
  let seq ← P.int (Dict.get rec "seq" (.int 0))
  let sizeKb ← P.float (Dict.get rec "size_kb" (.float .zero))
  let anomalyScore ← P.float (Dict.get rec "anomaly_score" (.float .zero))
  let noveltyScore ← P.float (Dict.get rec "novelty_score" (.float .zero))
  let typologyScore ← P.float (Dict.get rec "typology_score" (.float .zero))
  let piiBytes ← P.int (Dict.get rec "pii_bytes" (.int 0))
  return [(PyStr.ofString "txn_id", Dict.get rec "txn_id" (Json.text "")),
    (PyStr.ofString "bucket", .int (bucketFor ts)),
    (PyStr.ofString "timestamp_ns", .int ts),
    (PyStr.ofString "seq", .int seq),
    (PyStr.ofString "binding_hash", Dict.get rec "binding_hash" (Json.text "")),
    (PyStr.ofString "chain_hash", Dict.get rec "chain_hash" (Json.text "")),
    (PyStr.ofString "prev_chain_hash", Dict.get rec "prev_chain_hash" (Json.text "")),
    (PyStr.ofString "commitment_b64", Dict.get rec "commitment_b64" (Json.text "")),
    (PyStr.ofString "signature_b64", Dict.get rec "signature_b64" (Json.text "")),
    (PyStr.ofString "signing_key_id", Dict.get rec "signing_key_id" (Json.text "")),
    (PyStr.ofString "pubkey_fingerprint", Dict.get rec "pubkey_fingerprint" (Json.text "")),
    (PyStr.ofString "size_kb", .float sizeKb),
    (PyStr.ofString "lwe_params", Dict.get rec "lwe_params" (.obj [])),
    (PyStr.ofString "account_hash", Dict.get rec "account_hash" (Json.text "")),
    (PyStr.ofString "txn_type", Dict.get rec "txn_type" (Json.text "")),
    (PyStr.ofString "status", Dict.get rec "status" (Json.text "")),
    (PyStr.ofString "anomaly_score", .float anomalyScore),
    (PyStr.ofString "flag_reason", Dict.get rec "flag_reason" (Json.text "NONE")),
    (PyStr.ofString "novelty_score", .float noveltyScore),
    (PyStr.ofString "typology_score", .float typologyScore),
    (PyStr.ofString "pii_bytes", .int piiBytes)]

/-- `PRIMARY KEY ((bucket), timestamp_ns, txn_id)`. -/
structure BucketKey where
  bucket : Int
  timestampNs : Int
  txnId : PyStr
  deriving DecidableEq

/-- The key of a row by transaction, which has to be a text. -/
def txnKey (columns : Dict) : Option PyStr :=
  match Dict.get columns "txn_id" .null with
  | .str txnId => some txnId
  | _ => none

/-- The key of a row by day. -/
def bucketKey (columns : Dict) : Option BucketKey :=
  match Dict.get columns "bucket" .null, Dict.get columns "timestamp_ns" .null, txnKey columns with
  | .int bucket, .int timestampNs, some txnId => some ⟨bucket, timestampNs, txnId⟩
  | _, _, _ => none

/-- The row of a shard in `ledger_head`. -/
structure HeadRow where
  seq : Int
  chainHash : PyStr
  updatedNs : Int

/-! ## The ledger -/

structure CassandraLedger where
  available : Bool
  commitmentsByBucket : AList fun _ : BucketKey => Dict
  commitmentsByTxn : AList fun _ : PyStr => Dict
  ledgerHead : AList fun _ : PyStr => HeadRow
  writes : Nat
  writeErrors : Nat
  environment : Environment

/-- The shard every caller leaves to the default. -/
def DEFAULT_SHARD : PyStr := PyStr.ofString "default"

namespace CassandraLedger

/-- A connected ledger before the first write. -/
def empty (environment : Environment) : CassandraLedger :=
  { available := true
    commitmentsByBucket := ∅
    commitmentsByTxn := ∅
    ledgerHead := ∅
    writes := 0
    writeErrors := 0
    environment }

variable (ledger : CassandraLedger)

/-- The same ledger when the cluster and the clock have changed. -/
def meets (environment : Environment) : CassandraLedger := { ledger with environment }

/-- The statement goes through. -/
def takes (statement : Statement) : Bool :=
  ledger.available && !ledger.environment.fails statement

/-! ### Writes -/

/-- `INSERT INTO table`, where it does not raise. -/
def insert (table : Table) (columns : Dict) : Option CassandraLedger :=
  if ledger.environment.fails (.insert table) then none
  else
    match table with
    | .commitmentsByBucket =>
        (bucketKey columns).map fun key =>
          { ledger with commitmentsByBucket := ledger.commitmentsByBucket.insert key columns }
    | .commitmentsByTxn =>
        (txnKey columns).map fun key =>
          { ledger with commitmentsByTxn := ledger.commitmentsByTxn.insert key columns }

def countError : CassandraLedger := { ledger with writeErrors := ledger.writeErrors + 1 }

/-- Write one commitment to both query tables, the second one only after the
first.  The columns are computed before anything is caught. -/
def write (rec : Dict) : Except PyError Bool × CassandraLedger :=
  if !ledger.available then (.ok false, ledger)
  else
    match row P rec with
    | .error error => (.error error, ledger)
    | .ok columns =>
        match ledger.insert .commitmentsByBucket columns with
        | none => (.ok false, ledger.countError)
        | some inserted =>
            match inserted.insert .commitmentsByTxn columns with
            | none => (.ok false, inserted.countError)
            | some both => (.ok true, { both with writes := both.writes + 1 })

/-- `UPDATE commitments_by_txn SET status`: a missing row is made. -/
def setStatus (txnId status : PyStr) : Bool × CassandraLedger :=
  if !ledger.available then (false, ledger)
  else if ledger.environment.fails .updateStatus then (false, ledger)
  else
    let columns := (ledger.commitmentsByTxn.lookup txnId).getD [(PyStr.ofString "txn_id", .str txnId)]
    (true, { ledger with
      commitmentsByTxn := ledger.commitmentsByTxn.insert txnId (Dict.set columns "status" (.str status)) })

/-! ### The head of the chain -/

/-- An empty table, an error and a missing connection all answer `None`. -/
def loadHead (shard : PyStr) : Option (Int × PyStr) :=
  if !ledger.available then none
  else if ledger.environment.fails .selectHead then none
  else (ledger.ledgerHead.lookup shard).map fun own => (own.seq, own.chainHash)

def saveHead (seq : Int) (chainHash shard : PyStr) : Bool × CassandraLedger :=
  if !ledger.available then (false, ledger)
  else if ledger.environment.fails .updateHead then (false, ledger)
  else
    (true, { ledger with
      ledgerHead := ledger.ledgerHead.insert shard ⟨seq, chainHash, ledger.environment.nowNs⟩ })

/-! ### Reads -/

/-- A row as a dictionary; a column without a value is `None`. -/
def toDict (columns : Dict) : Dict :=
  COLUMNS.map fun column => (PyStr.ofString column,
    if column = "lwe_params" then Dict.get columns column (.obj []) else Dict.get columns column .null)

def get (txnId : PyStr) : Option Dict :=
  if !ledger.available then none
  else if ledger.environment.fails .selectByTxn then none
  else (ledger.commitmentsByTxn.lookup txnId).map toDict

/-- `CLUSTERING ORDER BY (timestamp_ns DESC, txn_id ASC)`. -/
def clustered (a b : Sigma fun _ : BucketKey => Dict) : Bool :=
  decide (b.1.timestampNs < a.1.timestampNs) ||
    decide (a.1.timestampNs = b.1.timestampNs) &&
      decide (a.1.txnId.map PyStr.codePoint ≤ b.1.txnId.map PyStr.codePoint)

/-- The first rows of a partition. -/
def selectByBucket (bucket : Int) (limit : Nat) : List Dict :=
  let partition := ledger.commitmentsByBucket.entries.filter fun entry => decide (entry.1.bucket = bucket)
  ((partition.mergeSort clustered).take limit).map Sigma.snd

/-- The rows of the partitions of these days before now, until there are
enough.  A statement that raises ends the scan, and so does a limit of zero,
which the server refuses. -/
def scan (bucketOf : Int -> Int) (limit : Nat) : List Nat -> List Dict -> List Dict
  | [], out => out
  | d :: rest, out =>
      let bucket := bucketOf (ledger.environment.nowNs - d * DAY_NS)
      if limit = 0 ∨ ledger.environment.fails (.selectByBucket bucket) = true then out
      else
        let out := out ++ (ledger.selectByBucket bucket limit).map toDict
        if limit ≤ out.length then out else scan bucketOf limit rest out

/-- The sort key `r.get("timestamp_ns", 0)`. -/
def timestampOf (row : Dict) : Int :=
  match Dict.get row "timestamp_ns" (.int 0) with
  | .int timestampNs => timestampNs
  | _ => 0

/-- Newest-first ledger scan across the last `days` day-partitions.  The days are
those of `bucketFor`, unless another reading of them is given. -/
def recent (limit days : Nat) (bucketOf : Int -> Int := bucketFor) : List Dict :=
  if !ledger.available then []
  else
    let out := ledger.scan bucketOf limit (List.range days) []
    (out.mergeSort fun a b => decide (timestampOf b ≤ timestampOf a)).take limit

end CassandraLedger

/-- The ledger as the commitment store calls it. -/
def calls : LedgerCalls CassandraLedger where
  loadHead ledger := ledger.loadHead DEFAULT_SHARD
  write ledger rec := (ledger.write P rec).2
  saveHead ledger seq chainHash := (ledger.saveHead seq chainHash DEFAULT_SHARD).2
  available ledger := ledger.available
  recent ledger limit := ledger.recent limit 2

/-- `get` as the commitment store calls it; a statement takes no other key than a text. -/
def rowCall (ledger : CassandraLedger) (txnId : Json) : Option Dict :=
  match txnId with
  | .str id => ledger.get id
  | _ => none

/-- `set_status` as the commitment store calls it. -/
def statusCall (ledger : CassandraLedger) (txnId : Json) (status : Status) : Bool × CassandraLedger :=
  match txnId with
  | .str id => ledger.setStatus id (PyStr.ofString status.text)
  | _ => (false, ledger)

end Cassandra
end ZeroAudit
