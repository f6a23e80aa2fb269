import ZeroAudit.Foundation.Machine
import ZeroAudit.Prover.Commitment

namespace ZeroAudit
namespace Consumer

open Foundation Signature Commitment

/-!
# The ingest loop of the prover (`prover/consumer.py`)

`process` handles one raw message.  It stops at the first step that raises and
counts an error, except that a message that is no dictionary raises before the
handler is entered.  The intent engine and the Kafka producer are machines of
their own behind the calls the loop makes on them.  What the broker has
accepted is kept in order, since the verifier reads it from there.
-/

variable (P : Platform)

/-! ## Collaborators -/

/-- The two topics the loop publishes to. -/
inductive Topic where
  | committed
  | anomalies
  deriving DecidableEq

/-- The arguments of one `detector.score`. -/
structure ScoreCall where
  txnId : Json
  accountHash : PyStr
  counterpartyHash : PyStr
  amountCents : Int
  txnType : Json
  timestampNs : Int

/-- The entries of a verdict that the loop reads.  The last two may be missing. -/
structure Verdict where
  anomalyScore : PyFloat
  flagReason : Json
  noveltyScore : Option PyFloat
  typologyScore : Option PyFloat

structure DetectorCalls (D : Type) where
  score : D -> ScoreCall -> Except PyError Verdict × D

structure ProducerCalls (K : Type) where
  send : K -> Topic -> Option Bytes -> Dict -> Except PyError Unit × K

structure Settings where
  anomalyThreshold : PyFloat
  requireSignature : Bool

/-! ## State -/

structure Stats where
  processed : Nat
  errors : Nat
  signatureFailures : Nat
  quarantined : Nat
  publishErrors : Nat

/-- A message the broker has accepted. -/
structure Sent where
  topic : Topic
  key : Option Bytes
  payload : Dict

structure ProverConsumer (L D K : Type) where
  store : CommitmentStore L
  /-- `None` where the intent engine could not be imported. -/
  detector : Option D
  producer : K
  sent : List Sent
  stats : Stats
  timestamps : List PyFloat

/-- One raw message, with the clock readings taken while it is handled. -/
structure Message where
  value : Json
  arrivalNs : Int
  commitNs : Int
  finished : PyFloat

def MAX_TIMESTAMPS : Nat := 5000

/-- `b"zeroaudit-chain"`, the key that pins the chain to one partition. -/
def chainKey : Bytes := "zeroaudit-chain".toUTF8.toList

/-- Both topics carry the chain. -/
def chainTopics : List Topic := [.committed, .anomalies]

/-! ## One message -/

structure Extracted where
  amountCents : Int
  accountId : Json
  counterpartyId : Json
  txnType : Json
  timestampNs : Int

/-- The defaults are computed whether they are needed or not. -/
def extract (record : Dict) (arrivalNs : Int) : Except PyError Extracted := do
  let amount ← P.float (Dict.get record "amount" (.int 0))
  let amountCents ← P.int
    (Dict.get record "amount_cents" (.float (P.floatMul amount (.finite 100))))
  let accountId := Dict.get record "account_id" (Json.text "unknown")
  let counterpartyId := Dict.get record "counterparty_id" accountId
  let txnType := Dict.get record "txn_type" (Dict.get record "type" (Json.text "UNKNOWN"))
  let timestampNs ← P.int (Dict.get record "timestamp_ns" (.int arrivalNs))
  return { amountCents, accountId, counterpartyId, txnType, timestampNs }

structure Scores where
  anomalyScore : PyFloat
  flagReason : Json
  noveltyScore : PyFloat
  typologyScore : PyFloat

/-- The scores without an intent engine. -/
def Scores.unscored : Scores :=
  { anomalyScore := .zero
    flagReason := Json.text "NONE"
    noveltyScore := .zero
    typologyScore := .zero }

section Handler

variable {L D K : Type} (ledgerCalls : LedgerCalls L) (detectorCalls : DetectorCalls D)
  (producerCalls : ProducerCalls K) (settings : Settings)

/-- Score the transaction; the engine may change its state even where it raises. -/
def score (detector : Option D) (txnId : Json) (extracted : Extracted) :
    Except PyError Scores × Option D :=
  match detector with
  | none => (.ok Scores.unscored, none)
  | some own =>
      let hashes : Except PyError (PyStr × PyStr) := do
        let account ← extracted.accountId.encode
        let counterparty ← extracted.counterpartyId.encode
        return (P.sha3Hex account, P.sha3Hex counterparty)
      match hashes with
      | .error error => (.error error, some own)
      | .ok (accountHash, counterpartyHash) =>
          match detectorCalls.score own
              { txnId, accountHash, counterpartyHash
                amountCents := extracted.amountCents
                txnType := extracted.txnType
                timestampNs := extracted.timestampNs } with
          | (.error error, after) => (.error error, some after)
          | (.ok verdict, after) =>
              (.ok { anomalyScore := verdict.anomalyScore
                     flagReason := verdict.flagReason
                     noveltyScore := verdict.noveltyScore.getD .zero
                     typologyScore := verdict.typologyScore.getD .zero }, some after)

namespace ProverConsumer

variable (consumer : ProverConsumer L D K)

/-- Publish one envelope; a send that raises is counted and logged. -/
def publish (topic : Topic) (payload : Dict) : ProverConsumer L D K :=
  let key := if topic ∈ chainTopics then some chainKey else none
  match producerCalls.send consumer.producer topic key payload with
  | (.ok _, producer) =>
      { consumer with producer, sent := consumer.sent ++ [⟨topic, key, payload⟩] }
  | (.error _, producer) =>
      { consumer with
        producer
        stats := { consumer.stats with publishErrors := consumer.stats.publishErrors + 1 } }

/-- The call of `add` for a scored transaction. -/
def addCall (txnId : Json) (extracted : Extracted) (scores : Scores) (commitNs : Int) : AddCall :=
  { txnId
    amountCents := extracted.amountCents
    accountId := extracted.accountId
    txnType := extracted.txnType
    anomalyScore := .float scores.anomalyScore
    flagReason := scores.flagReason
    threshold := settings.anomalyThreshold
    noveltyScore := .float scores.noveltyScore
    typologyScore := .float scores.typologyScore
    nowNs := commitNs }

/-- Publish a committed record, and quarantine it if its score says so. -/
def announce (record : CommitmentRecord) (scores : Scores) : ProverConsumer L D K :=
  let envelope := record.toExportDict
  let consumer := consumer.publish producerCalls .committed envelope
  if scores.anomalyScore.ge settings.anomalyThreshold then
    let consumer := consumer.publish producerCalls .anomalies envelope
    { consumer with stats := { consumer.stats with quarantined := consumer.stats.quarantined + 1 } }
  else consumer

/-- Count a processed message and keep its time. -/
def finish (finished : PyFloat) : ProverConsumer L D K :=
  let timestamps := consumer.timestamps ++ [finished]
  { consumer with
    stats := { consumer.stats with processed := consumer.stats.processed + 1 }
    timestamps := timestamps.drop (timestamps.length - MAX_TIMESTAMPS) }

/-- The body of the handler: firewall, extraction, scoring, commitment, publication. -/
def handle (txnId : Json) (record : Dict) (message : Message) :
    Except PyError Unit × ProverConsumer L D K :=
  match verifyTransactionSignature P settings.requireSignature record with
  | .error error => (.error error, consumer)
  | .ok false =>
      (.ok (), { consumer with
        stats := { consumer.stats with signatureFailures := consumer.stats.signatureFailures + 1 } })
  | .ok true =>
      match extract P record message.arrivalNs with
      | .error error => (.error error, consumer)
      | .ok extracted =>
          match score P detectorCalls consumer.detector txnId extracted with
          | (.error error, detector) => (.error error, { consumer with detector })
          | (.ok scores, detector) =>
              let call := addCall settings txnId extracted scores message.commitNs
              match CommitmentStore.add P consumer.store ledgerCalls call with
              | (.error error, store) => (.error error, { consumer with detector, store })
              | (.ok committed, store) =>
                  let consumer : ProverConsumer L D K := { consumer with detector, store }
                  (.ok (), (consumer.announce producerCalls settings committed scores).finish
                    message.finished)

/-- Handle one raw message. -/
def process (message : Message) : Except PyError Unit × ProverConsumer L D K :=
  match message.value.asDict with
  | .error error => (.error error, consumer)
  | .ok record =>
      let txnId := (Dict.get record "txn_id" .null).orElse
        (Dict.get record "transaction_id" (Json.text "unknown"))
      match consumer.handle P ledgerCalls detectorCalls producerCalls settings txnId record message with
      | (.ok _, after) => (.ok (), after)
      | (.error _, after) =>
          (.ok (), { after with stats := { after.stats with errors := after.stats.errors + 1 } })

/-- Handle raw messages in order. -/
abbrev processAll : ProverConsumer L D K -> List Message -> List (Except PyError Unit) × ProverConsumer L D K :=
  Machine.run (process P ledgerCalls detectorCalls producerCalls settings)

/-- What the broker holds on a topic, in order. -/
def delivered (topic : Topic) : List Dict :=
  (consumer.sent.filter fun sent => decide (sent.topic = topic)).map Sent.payload

end ProverConsumer

/-- A consumer that has handled nothing yet. -/
def ProverConsumer.new (store : CommitmentStore L) (detector : Option D) (producer : K) :
    ProverConsumer L D K :=
  { store, detector, producer
    sent := []
    stats := ⟨0, 0, 0, 0, 0⟩
    timestamps := [] }

end Handler

end Consumer
end ZeroAudit
