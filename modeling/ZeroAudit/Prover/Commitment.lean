import ZeroAudit.Prover.Lwe
import ZeroAudit.Prover.Signature

namespace ZeroAudit
namespace Commitment

open Foundation Signature

/-!
# The commitment ledger (`prover/crypto/commitment.py`)

The store is explicit state.  `add` is kept in the three parts the source
has: what happens before the lock, the locked section, and the calls to the
durable ledger after it.  The head and the sequence number move early in the
locked section, so the state that an exception leaves behind is part of every
result.
-/

variable (P : Platform)

def GENESIS_HASH : PyStr := List.replicate 64 (.scalar '0')

def HOT_RING_SIZE : Nat := 5000

/-- The bytes one link hashes: four encodings, one after the other. -/
def linkPreimage (prevChainHash bindingHash txnId timestampNs : Json) : Except PyError Bytes := do
  let first ← prevChainHash.encode
  let second ← bindingHash.encode
  let third ← txnId.encode
  let fourth ← (Json.str (P.str timestampNs)).encode
  return first ++ second ++ third ++ fourth

/-- One link of the ledger hash chain. -/
def computeChainHash (prevChainHash bindingHash txnId timestampNs : Json) :
    Except PyError PyStr := do
  let preimage ← linkPreimage P prevChainHash bindingHash txnId timestampNs
  return P.sha3Hex preimage

/-! ## Records -/

inductive Status where
  | pending
  | verified
  | quarantined
  | rejected
  deriving DecidableEq

def Status.text : Status -> String
  | .pending => "PENDING"
  | .verified => "VERIFIED"
  | .quarantined => "QUARANTINED"
  | .rejected => "REJECTED"

structure CommitmentRecord where
  txnId : Json
  commitmentB64 : PyStr
  bindingHash : PyStr
  sizeKb : PyFloat
  lweParams : Json
  timestampNs : Int
  seq : Int
  prevChainHash : PyStr
  chainHash : PyStr
  signatureB64 : PyStr
  signingKeyId : PyStr
  sigAlg : PyStr
  pubkeyFingerprint : PyStr
  piiBytes : Int
  accountHash : PyStr
  txnType : Json
  status : Status
  anomalyScore : PyFloat
  flagReason : Json
  noveltyScore : PyFloat
  typologyScore : PyFloat

/-- The zero-PII export that goes on the public topic. -/
def CommitmentRecord.toExportDict (record : CommitmentRecord) : Dict :=
  [(PyStr.ofString "txn_id", record.txnId),
    (PyStr.ofString "seq", .int record.seq),
    (PyStr.ofString "commitment_b64", .str record.commitmentB64),
    (PyStr.ofString "binding_hash", .str record.bindingHash),
    (PyStr.ofString "prev_chain_hash", .str record.prevChainHash),
    (PyStr.ofString "chain_hash", .str record.chainHash),
    (PyStr.ofString "signature_b64", .str record.signatureB64),
    (PyStr.ofString "signing_key_id", .str record.signingKeyId),
    (PyStr.ofString "sig_alg", .str record.sigAlg),
    (PyStr.ofString "pubkey_fingerprint", .str record.pubkeyFingerprint),
    (PyStr.ofString "size_kb", .float record.sizeKb),
    (PyStr.ofString "lwe_params", record.lweParams),
    (PyStr.ofString "timestamp_ns", .int record.timestampNs),
    (PyStr.ofString "pii_bytes", .int record.piiBytes),
    (PyStr.ofString "account_hash", .str record.accountHash),
    (PyStr.ofString "txn_type", record.txnType),
    (PyStr.ofString "status", Json.text record.status.text),
    (PyStr.ofString "anomaly_score", .float record.anomalyScore),
    (PyStr.ofString "flag_reason", record.flagReason),
    (PyStr.ofString "novelty_score", .float record.noveltyScore),
    (PyStr.ofString "typology_score", .float record.typologyScore)]

/-! ## The store -/

/-- The calls the store makes on a durable ledger of type `L`.  A statement
that fails is reported by the ledger, not raised. -/
structure LedgerCalls (L : Type) where
  loadHead : L -> Option (Int × PyStr)
  write : L -> Dict -> L
  saveHead : L -> Int -> PyStr -> L
  available : L -> Bool
  recent : L -> Nat -> List Dict

structure CommitmentStore (L : Type) where
  hot : List (Json × CommitmentRecord)
  ringSize : Nat
  ledger : Option L
  keypair : Lwe.LWEKeyPair
  masterKey : Bytes
  signingKey : SigningKey
  seq : Int
  head : PyStr
  counts : Status -> Nat
  total : Nat

/-- The arguments of one `add`, with the reading of the clock it takes, and what signing raises,
if it does. -/
structure AddCall where
  txnId : Json
  amountCents : Int
  accountId : Json
  txnType : Json
  anomalyScore : Json
  flagReason : Json
  threshold : PyFloat
  noveltyScore : Json
  typologyScore : Json
  nowNs : Int
  signingError : Option PyError := none

/-- `ring[key] = record`: a key that is present keeps its place. -/
def ringSet (ring : List (Json × CommitmentRecord)) (key : Json) (record : CommitmentRecord) :
    List (Json × CommitmentRecord) :=
  match ring with
  | [] => [(key, record)]
  | (own, old) :: rest =>
      if own.eqScalar key then (own, record) :: rest else (own, old) :: ringSet rest key record

/-- `ring.get(key)`. -/
def ringGet (ring : List (Json × CommitmentRecord)) (key : Json) : Option CommitmentRecord :=
  (ring.find? fun entry => entry.1.eqScalar key).map Prod.snd

/-- Drop the oldest entries until the ring fits. -/
def ringEvict (size : Nat) (ring : List (Json × CommitmentRecord)) :
    List (Json × CommitmentRecord) :=
  ring.drop (ring.length - size)

/-- What `add` computes before it takes the lock. -/
structure Sealed where
  accountHash : PyStr
  lweResult : Lwe.Commitment
  status : Status

namespace CommitmentStore

variable {L : Type}

/-- `CommitmentStore(ledger, ring_size)`: the chain is resumed from the ledger
if it has a head, and starts from genesis otherwise. -/
def new (calls : LedgerCalls L) (ledger : Option L) (ringSize : Nat) (keypair : Lwe.LWEKeyPair)
    (masterKey : Bytes) (signingKey : SigningKey) : CommitmentStore L :=
  let resumed := (ledger.bind calls.loadHead).getD (0, GENESIS_HASH)
  { hot := [], ringSize, ledger, keypair, masterKey, signingKey
    seq := resumed.1
    head := resumed.2
    counts := fun _ => 0
    total := 0 }

variable (store : CommitmentStore L)

def sealTransaction (call : AddCall) : Except PyError Sealed := do
  let accountBytes ← call.accountId.encode
  let lweResult ← Lwe.commit P store.keypair call.amountCents call.txnId store.masterKey call.nowNs
  let quarantined ← call.anomalyScore.ge call.threshold
  return { accountHash := P.sha3Hex accountBytes
           lweResult
           status := if quarantined then .quarantined else .verified }

/-- Sign the link and fill in the record. -/
def buildRecord (call : AddCall) (sealed : Sealed) (seq : Int) (chainHash : PyStr) :
    Except PyError CommitmentRecord := do
  let envelope ← signCommitment P store.signingKey call.signingError call.txnId
    (.str sealed.lweResult.bindingHash) (.int sealed.lweResult.timestampNs) (.str chainHash)
  let anomalyScore ← P.float call.anomalyScore
  let noveltyScore ← P.float call.noveltyScore
  let typologyScore ← P.float call.typologyScore
  return { txnId := call.txnId
           commitmentB64 := sealed.lweResult.commitmentB64
           bindingHash := sealed.lweResult.bindingHash
           sizeKb := sealed.lweResult.sizeKb
           lweParams := sealed.lweResult.lweParams
           timestampNs := sealed.lweResult.timestampNs
           seq
           prevChainHash := store.head
           chainHash
           signatureB64 := envelope.signatureB64
           signingKeyId := envelope.signingKeyId
           sigAlg := envelope.sigAlg
           pubkeyFingerprint := sealed.lweResult.pubkeyFingerprint
           piiBytes := 0
           accountHash := sealed.accountHash
           txnType := call.txnType
           status := sealed.status
           anomalyScore := anomalyScore.round 4
           flagReason := call.flagReason
           noveltyScore := noveltyScore.round 4
           typologyScore := typologyScore.round 4 }

/-- The locked section.  Once the link is computed, the head and the sequence
number have moved, whatever happens to the record. -/
def addLocked (call : AddCall) (sealed : Sealed) :
    Except PyError CommitmentRecord × CommitmentStore L :=
  let seq := store.seq + 1
  match computeChainHash P (.str store.head) (.str sealed.lweResult.bindingHash) call.txnId
      (.int sealed.lweResult.timestampNs) with
  | .error error => (.error error, store)
  | .ok chainHash =>
      let moved := { store with head := chainHash, seq }
      match buildRecord P store call sealed seq chainHash with
      | .error error => (.error error, moved)
      | .ok record =>
          (.ok record,
            { moved with
              hot := ringEvict store.ringSize (ringSet store.hot call.txnId record)
              total := store.total + 1
              counts := fun status =>
                if status = sealed.status then store.counts status + 1 else store.counts status })

/-- The calls to the durable ledger, made after the lock is released. -/
def persist (calls : LedgerCalls L) (record : CommitmentRecord) : CommitmentStore L :=
  { store with
    ledger := store.ledger.map fun ledger =>
      calls.saveHead (calls.write ledger record.toExportDict) record.seq record.chainHash }

/-- Commit one transaction: commitment, chain, signature, persistence. -/
def add (calls : LedgerCalls L) (call : AddCall) :
    Except PyError CommitmentRecord × CommitmentStore L :=
  match sealTransaction P store call with
  | .error error => (.error error, store)
  | .ok sealed =>
      match addLocked P store call sealed with
      | (.error error, store) => (.error error, store)
      | (.ok record, store) => (.ok record, persist store calls record)

/-- `_set_status`: the record in the ring, then the row of the ledger. -/
def setStatus (ledgerSetStatus : L -> Json -> Status -> Bool × L) (txnId : Json) (status : Status) :
    Bool × CommitmentStore L :=
  let found := ringGet store.hot txnId
  let marked := match found with
    | none => store
    | some record =>
        let lowered : Status -> Nat := fun other =>
          if other = record.status then store.counts other - 1 else store.counts other
        { store with
          hot := ringSet store.hot txnId { record with status }
          counts := fun other => if other = status then lowered other + 1 else lowered other }
  match marked.ledger with
  | none => (found.isSome, marked)
  | some ledger =>
      let persisted := ledgerSetStatus ledger txnId status
      (found.isSome || persisted.1, { marked with ledger := some persisted.2 })

/-- Everything an external verifier needs. -/
def publicKeys : Except PyError Dict := do
  let lwePublicKey ← store.keypair.publicKeyB64
  let lweFingerprint ← store.keypair.fingerprint P
  return [(PyStr.ofString "lwe_public_key_b64", .str lwePublicKey),
    (PyStr.ofString "lwe_fingerprint", .str lweFingerprint),
    (PyStr.ofString "ed25519_public_key_b64", .str (store.signingKey.publicKeyB64 P)),
    (PyStr.ofString "signing_key_id", .str (store.signingKey.keyId P)),
    (PyStr.ofString "lwe_params", Lwe.lweParams)]

/-- Newest-first export; the durable tier wins when it has rows. -/
def auditExport (calls : LedgerCalls L) (limit : Nat) : List Dict :=
  let durable := match store.ledger with
    | some ledger => if calls.available ledger then calls.recent ledger limit else []
    | none => []
  if durable.isEmpty then
    let newestFirst := (store.hot.map Prod.snd).mergeSort fun a b => decide (b.seq ≤ a.seq)
    (newestFirst.take limit).map CommitmentRecord.toExportDict
  else durable

end CommitmentStore

/-! ## Walking a chain -/

structure ChainBreak where
  seq : Json
  txnId : Json
  reason : PyStr

structure ChainReport where
  intact : Bool
  checked : Nat
  breaks : List ChainBreak
  /-- The two ends of the range and the last chain hash, absent on an empty ledger. -/
  range : Option (Json × Json)
  head : Option Json
  detail : Option String

/-- The number that a record is sorted by, if its `seq` is one. -/
def walkSeq (record : Dict) : Option PyFloat := (Dict.get record "seq" (.int 0)).asNumber

/-- A record with its key.  Keys of which one is no number are refused: by the comparison, or by
the subtraction after the sort. -/
def keyed (record : Dict) : Except PyError (PyFloat × Dict) :=
  match walkSeq record with
  | some number => .ok (number, record)
  | none => .error ⟨.typeError, "'<' not supported between instances of different types"⟩

/-- `sorted(records, key=lambda r: r.get("seq", 0))`. -/
def sortBySeq (records : List Dict) : Except PyError (List Dict) := do
  let entries ← records.mapM keyed
  return (P.sorted entries).map Prod.snd

structure Walk where
  breaks : List ChainBreak
  prevHash : Json
  prevSeq : Json

/-- The digits up to which the runtime converts an integer to text. -/
def MAX_STR_DIGITS : Nat := 4300

/-- `"%d" % value`. -/
def formatInt (value : Json) : Except PyError PyStr := do
  let own ← P.int value
  if own.natAbs < 10 ^ MAX_STR_DIGITS then return PyStr.decimal own
  else .error ⟨.valueError, "Exceeds the limit (4300 digits) for integer string conversion"⟩

/-- The break of a record that does not follow in sequence. -/
def sequenceGap (prevSeq seq txnId : Json) : Except PyError (List ChainBreak) := do
  let nextSeq ← prevSeq.addInt 1
  if seq.eqScalar nextSeq then return []
  let shown ← formatInt P nextSeq
  return [⟨seq, txnId, PyStr.ofString "SEQUENCE_GAP (expected " ++ shown ++ PyStr.ofString ")"⟩]

/-- One round of the loop.  The two walkers differ in one reason text. -/
def walkStep (recomputeReason : String) (walk : Walk) (record : Dict) : Except PyError Walk := do
  let seq := Dict.get record "seq" (.int 0)
  let txnId := Dict.get record "txn_id" .null
  let broken (holds : Bool) (reason : String) : List ChainBreak :=
    if holds then [] else [⟨seq, txnId, PyStr.ofString reason⟩]
  let named := (Dict.get record "prev_chain_hash" .null).eqScalar walk.prevHash
  let expected ← computeChainHash P (Dict.get record "prev_chain_hash" (Json.text ""))
    (Dict.get record "binding_hash" (Json.text "")) (Dict.get record "txn_id" (Json.text ""))
    (Dict.get record "timestamp_ns" (.int 0))
  let recomputes := (Dict.get record "chain_hash" .null).eqStr expected
  let gap ← sequenceGap P walk.prevSeq seq txnId
  return { breaks := walk.breaks ++ broken named "PREV_HASH_MISMATCH"
             ++ broken recomputes recomputeReason ++ gap
           prevHash := Dict.get record "chain_hash" (Json.text "")
           prevSeq := seq }

/-- Walk sorted records oldest first and report every break. -/
def walkChain (recomputeReason emptyDetail : String) (records : List Dict) : Except PyError ChainReport := do
  let sorted ← sortBySeq P records
  match sorted.head?, sorted.getLast? with
  | some first, some last =>
      let start ← (Dict.get first "seq" (.int 1)).addInt (-1)
      let walk ← sorted.foldlM (walkStep P recomputeReason)
        { breaks := []
          prevHash := Dict.get first "prev_chain_hash" (.str GENESIS_HASH)
          prevSeq := start }
      return { intact := walk.breaks.isEmpty
               checked := sorted.length
               breaks := walk.breaks.take 20
               range := some (Dict.get first "seq" .null, Dict.get last "seq" .null)
               head := some walk.prevHash
               detail := none }
  | _, _ =>
      return { intact := true, checked := 0, breaks := [], range := none, head := none
               detail := some emptyDetail }

/-- `CommitmentStore.verify_chain` on the records it exports. -/
def verifyChain (records : List Dict) : Except PyError ChainReport :=
  walkChain P "CHAIN_HASH_RECOMPUTE_MISMATCH" "empty ledger" records

end Commitment
end ZeroAudit
