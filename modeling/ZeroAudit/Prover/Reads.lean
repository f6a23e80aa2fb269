import ZeroAudit.Foundation.Machine
import ZeroAudit.Prover.CassandraStore

namespace ZeroAudit
namespace Commitment

open Foundation

/-!
# The read path of the store (`prover/crypto/commitment.py`)

A record is looked up in the ring, and rebuilt from a row of the ledger where
the ring no longer has it.  The dataclass does not check its fields, so that a
rebuilt record holds whatever the columns of the row hold.  What is served to
an auditor, an opening or the trace of a check, starts from this lookup.
-/

variable (P : Platform)

/-! ## Records from either tier -/

/-- A record as `get` returns it. -/
structure LoadedRecord where
  txnId : Json
  commitmentB64 : Json
  bindingHash : Json
  sizeKb : PyFloat
  lweParams : Json
  timestampNs : Int
  seq : Int
  prevChainHash : Json
  chainHash : Json
  signatureB64 : Json
  signingKeyId : Json
  sigAlg : Json
  pubkeyFingerprint : Json
  piiBytes : Int
  accountHash : Json
  txnType : Json
  status : Json
  anomalyScore : PyFloat
  flagReason : Json
  noveltyScore : PyFloat
  typologyScore : PyFloat

/-- A record of the ring. -/
def CommitmentRecord.loaded (record : CommitmentRecord) : LoadedRecord :=
  { txnId := record.txnId
    commitmentB64 := .str record.commitmentB64
    bindingHash := .str record.bindingHash
    sizeKb := record.sizeKb
    lweParams := record.lweParams
    timestampNs := record.timestampNs
    seq := record.seq
    prevChainHash := .str record.prevChainHash
    chainHash := .str record.chainHash
    signatureB64 := .str record.signatureB64
    signingKeyId := .str record.signingKeyId
    sigAlg := .str record.sigAlg
    pubkeyFingerprint := .str record.pubkeyFingerprint
    piiBytes := record.piiBytes
    accountHash := .str record.accountHash
    txnType := record.txnType
    status := Json.text record.status.text
    anomalyScore := record.anomalyScore
    flagReason := record.flagReason
    noveltyScore := record.noveltyScore
    typologyScore := record.typologyScore }

/-- `to_export_dict` of whatever record was found. -/
def LoadedRecord.toExportDict (record : LoadedRecord) : Dict :=
  [(PyStr.ofString "txn_id", record.txnId),
    (PyStr.ofString "seq", .int record.seq),
    (PyStr.ofString "commitment_b64", record.commitmentB64),
    (PyStr.ofString "binding_hash", record.bindingHash),
    (PyStr.ofString "prev_chain_hash", record.prevChainHash),
    (PyStr.ofString "chain_hash", record.chainHash),
    (PyStr.ofString "signature_b64", record.signatureB64),
    (PyStr.ofString "signing_key_id", record.signingKeyId),
    (PyStr.ofString "sig_alg", record.sigAlg),
    (PyStr.ofString "pubkey_fingerprint", record.pubkeyFingerprint),
    (PyStr.ofString "size_kb", .float record.sizeKb),
    (PyStr.ofString "lwe_params", record.lweParams),
    (PyStr.ofString "timestamp_ns", .int record.timestampNs),
    (PyStr.ofString "pii_bytes", .int record.piiBytes),
    (PyStr.ofString "account_hash", record.accountHash),
    (PyStr.ofString "txn_type", record.txnType),
    (PyStr.ofString "status", record.status),
    (PyStr.ofString "anomaly_score", .float record.anomalyScore),
    (PyStr.ofString "flag_reason", record.flagReason),
    (PyStr.ofString "novelty_score", .float record.noveltyScore),
    (PyStr.ofString "typology_score", .float record.typologyScore)]

@[simp] theorem toExportDict_loaded (record : CommitmentRecord) :
    record.loaded.toExportDict = record.toExportDict := rfl

/-- `_record_from_row`.  The algorithm of the signature has no column. -/
def recordFromRow (row : Dict) : Except PyError LoadedRecord := do
  let column (key : String) (default : Json) : Json := (Dict.get row key .null).orElse default
  let sizeKb ← P.float (column "size_kb" (.float .zero))
  let timestampNs ← P.int (column "timestamp_ns" (.int 0))
  let seq ← P.int (column "seq" (.int 0))
  let piiBytes ← P.int (column "pii_bytes" (.int 0))
  let anomalyScore ← P.float (column "anomaly_score" (.float .zero))
  let noveltyScore ← P.float (column "novelty_score" (.float .zero))
  let typologyScore ← P.float (column "typology_score" (.float .zero))
  return { txnId := Dict.get row "txn_id" (Json.text "")
           commitmentB64 := Dict.get row "commitment_b64" (Json.text "")
           bindingHash := Dict.get row "binding_hash" (Json.text "")
           sizeKb
           lweParams := column "lwe_params" (.obj [])
           timestampNs
           seq
           prevChainHash := column "prev_chain_hash" (.str GENESIS_HASH)
           chainHash := column "chain_hash" (Json.text "")
           signatureB64 := column "signature_b64" (Json.text "")
           signingKeyId := column "signing_key_id" (Json.text "")
           sigAlg := Json.text "Ed25519"
           pubkeyFingerprint := column "pubkey_fingerprint" (Json.text "")
           piiBytes
           accountHash := column "account_hash" (Json.text "")
           txnType := column "txn_type" (Json.text "")
           status := column "status" (Json.text "PENDING")
           anomalyScore
           flagReason := column "flag_reason" (Json.text "NONE")
           noveltyScore
           typologyScore }

/-- The answer of `verify_txn`: a trace, or that there is nothing to check. -/
inductive TxnCheck where
  | missing (error : PyStr)
  | traced (verification : Lwe.Verification)

namespace CommitmentStore

variable {L : Type} (ledgerGet : L -> Json -> Option Dict) (store : CommitmentStore L)

/-- The ring, then the row of the ledger. -/
def get (txnId : Json) : Except PyError (Option LoadedRecord) :=
  match ringGet store.hot txnId with
  | some record => .ok (some record.loaded)
  | none =>
      match store.ledger.bind fun ledger => ledgerGet ledger txnId with
      | some row => if row.isEmpty then .ok none else (recordFromRow P row).map some
      | none => .ok none

/-- The disclosure an auditor needs to open one commitment. -/
def openingFor (txnId : Json) (amountCents : Int) : Except PyError (Option Dict) := do
  match ← store.get P ledgerGet txnId with
  | none => return none
  | some record =>
      let seed ← Lwe.deriveRandomness P store.masterKey txnId
      let publicKey ← store.keypair.publicKeyB64
      let fingerprint ← store.keypair.fingerprint P
      return some [(PyStr.ofString "txn_id", txnId),
        (PyStr.ofString "amount_cents", .int amountCents),
        (PyStr.ofString "blinding_seed_hex", .str (hex seed)),
        (PyStr.ofString "commitment_b64", record.commitmentB64),
        (PyStr.ofString "binding_hash", record.bindingHash),
        (PyStr.ofString "lwe_public_key_b64", .str publicKey),
        (PyStr.ofString "pubkey_fingerprint", .str fingerprint)]

/-- Full recomputation trace for one transaction. -/
def verifyTxn (txnId : Json) (amountCents nowNs : Int) : Except PyError TxnCheck := do
  match ← store.get P ledgerGet txnId with
  | none =>
      return .missing (PyStr.ofString "TXN " ++ P.str txnId ++ PyStr.ofString " not found in ledger")
  | some record =>
      let verification ← Lwe.verify P store.keypair record.toExportDict amountCents txnId
        store.masterKey nowNs
      return .traced verification

/-! ## Status transitions -/

variable (ledgerSetStatus : L -> Json -> Status -> Bool × L)

def quarantine (txnId : Json) : Bool × CommitmentStore L :=
  store.setStatus ledgerSetStatus txnId .quarantined

def authorize (txnId : Json) : Bool × CommitmentStore L :=
  store.setStatus ledgerSetStatus txnId .verified

def reject (txnId : Json) : Bool × CommitmentStore L :=
  store.setStatus ledgerSetStatus txnId .rejected

end CommitmentStore

/-! ## Requests -/

/-- The three status transitions. -/
inductive Transition where
  | quarantine
  | authorize
  | reject
  deriving DecidableEq

/-- The status a transition leads to. -/
def Transition.status : Transition -> Status
  | .quarantine => .quarantined
  | .authorize => .verified
  | .reject => .rejected

/-- What callers ask of a store. -/
inductive Request where
  | add (call : AddCall)
  | mark (transition : Transition) (txnId : Json)

inductive Answer where
  | committed (result : Except PyError CommitmentRecord)
  | marked (done : Bool)

section Serve

variable {L : Type} (calls : LedgerCalls L) (ledgerSetStatus : L -> Json -> Status -> Bool × L)
  (store : CommitmentStore L)

def serve : Request -> Answer × CommitmentStore L
  | .add call =>
      let added := CommitmentStore.add P store calls call
      (.committed added.1, added.2)
  | .mark .quarantine txnId =>
      let answer := store.quarantine ledgerSetStatus txnId
      (.marked answer.1, answer.2)
  | .mark .authorize txnId =>
      let answer := store.authorize ledgerSetStatus txnId
      (.marked answer.1, answer.2)
  | .mark .reject txnId =>
      let answer := store.reject ledgerSetStatus txnId
      (.marked answer.1, answer.2)

/-- The three transitions are one function with a status of their own. -/
theorem serve_mark (transition : Transition) (txnId : Json) :
    serve P calls ledgerSetStatus store (.mark transition txnId) =
      (.marked (store.setStatus ledgerSetStatus txnId transition.status).1,
        (store.setStatus ledgerSetStatus txnId transition.status).2) := by
  cases transition with
  | quarantine => rfl
  | authorize => rfl
  | reject => rfl

/-- The counts when a record has left one status for another. -/
def recount (counts : Status -> Nat) (old new : Status) : Status -> Nat := fun other =>
  let lowered := if other = old then counts other - 1 else counts other
  if other = new then lowered + 1 else lowered

/-- A transition marks the record in the ring, if there is one, and in any case
tells the ledger. -/
theorem setStatus_outcome (txnId : Json) (status : Status) :
    (store.setStatus ledgerSetStatus txnId status).1 =
        ((ringGet store.hot txnId).isSome ||
          (store.ledger.any fun ledger => (ledgerSetStatus ledger txnId status).1)) ∧
      (store.setStatus ledgerSetStatus txnId status).2 =
        { store with
          hot := ((ringGet store.hot txnId).map fun record =>
            ringSet store.hot txnId { record with status }).getD store.hot
          counts := ((ringGet store.hot txnId).map fun record =>
            recount store.counts record.status status).getD store.counts
          ledger := store.ledger.map fun ledger => (ledgerSetStatus ledger txnId status).2 } := by
  rcases store with ⟨hot, ringSize, ledger, keypair, masterKey, signingKey, seq, head, counts, total⟩
  unfold CommitmentStore.setStatus
  dsimp only
  cases ringGet hot txnId with
  | none =>
      cases ledger with
      | none => exact ⟨rfl, rfl⟩
      | some own => exact ⟨rfl, rfl⟩
  | some record =>
      cases ledger with
      | none => exact ⟨rfl, rfl⟩
      | some own => exact ⟨rfl, rfl⟩

end Serve

end Commitment
end ZeroAudit
