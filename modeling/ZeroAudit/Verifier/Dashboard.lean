import ZeroAudit.Foundation.Machine
import ZeroAudit.Verifier.KafkaConsumer

namespace ZeroAudit
namespace Api

open Foundation Verify Kafka Lwe

/-!
# The auditor-facing service (`verifier/dashboard.py`)

The service holds the fetched keys, a verifier, the reports it has drawn, the
decisions of its analysts, and the buffers of its consumer.  Records leave the
buffers by reference: an endpoint that annotates the records it returns
annotates what is buffered.  An endpoint that raises keeps what it had written
before.
-/

variable (P : Platform)

/-! ## Dictionaries keyed by JSON values -/

/-- `hash(value)`, which containers refuse. -/
def hashable : Json -> Except PyError Unit
  | .arr _ => .error ⟨.typeError, "unhashable type: 'list'"⟩
  | .obj _ => .error ⟨.typeError, "unhashable type: 'dict'"⟩
  | _ => .ok ()

/-- `entries.get(key)`. -/
def lookup {V : Type} (entries : List (Json × V)) (key : Json) : Except PyError (Option V) := do
  hashable key
  return (entries.find? fun entry => entry.1.eqScalar key).map Prod.snd

/-- Replace the value of a key in its place, or append the key. -/
def assignEntry {V : Type} (key : Json) (value : V) : List (Json × V) -> List (Json × V)
  | [] => [(key, value)]
  | (own, old) :: rest =>
      if own.eqScalar key then (own, value) :: rest else (own, old) :: assignEntry key value rest

/-- `entries[key] = value`. -/
def assign {V : Type} (entries : List (Json × V)) (key : Json) (value : V) :
    Except PyError (List (Json × V)) := do
  hashable key
  return assignEntry key value entries

/-! ## State -/

/-- The verifier, and the latest report for each transaction id. -/
structure Reports where
  verifier : ExternalVerifier
  latest : List (Json × Report)

structure Resolution where
  action : PyStr
  resolvedBy : PyStr
  note : PyStr
  resolvedAtNs : Int

def Resolution.toDict (resolution : Resolution) : Dict :=
  [(PyStr.ofString "action", .str resolution.action),
    (PyStr.ofString "resolved_by", .str resolution.resolvedBy),
    (PyStr.ofString "note", .str resolution.note),
    (PyStr.ofString "resolved_at_ns", .int resolution.resolvedAtNs)]

structure Dashboard where
  /-- Absent where the Kafka client could not be imported. -/
  consumer : Option (VerifierKafkaConsumer BUFFER_SIZE)
  reports : Reports
  proverKeys : Dict
  resolutions : List (Json × Resolution)

/-- More reports than this, and the oldest are dropped. -/
def MAX_REPORTS : Nat := 5000

def DROPPED_REPORTS : Nat := 1000

/-- The consumer callback: verify, then retain the report. -/
def recordVerification (reports : Reports) (record : Dict) : Except PyError Report × Reports :=
  match verifyEnvelope P reports.verifier record with
  | (.error error, verifier) => (.error error, { reports with verifier })
  | (.ok report, verifier) =>
      let latest :=
        if MAX_REPORTS < reports.latest.length then reports.latest.drop DROPPED_REPORTS
        else reports.latest
      match assign latest (Dict.get record "txn_id" (Json.text "")) report with
      | .error error => (.error error, { verifier, latest })
      | .ok latest => (.ok report, { verifier, latest })

/-- The callbacks installed at startup. -/
def callbacks : Callbacks Reports :=
  { onCommitted := some (recordVerification P)
    onAnomaly := none }

/-- An endpoint ends in an HTTP error of its own or in another exception. -/
inductive Failure where
  | http (statusCode : Nat) (detail : PyStr)
  | raised (error : PyError)

namespace Dashboard

/-- The service right after startup. -/
def started : Dashboard :=
  { consumer := some (.new BUFFER_SIZE)
    reports := { verifier := .new .null, latest := [] }
    proverKeys := []
    resolutions := [] }

variable (board : Dashboard)

/-! ## Records -/

def committed (n : Int) : List Dict :=
  match board.consumer with
  | some consumer => consumer.recentCommitted n
  | none => []

def recentAnomalies (n : Int) : List Dict :=
  match board.consumer with
  | some consumer => consumer.recentAnomalies n
  | none => []

/-- The newest committed record of a transaction. -/
def find (txnId : PyStr) : Option Dict :=
  (board.committed 500).reverse.find? fun record => (Dict.get record "txn_id" .null).eqStr txnId

/-- Write the verdict of the latest report on a record. -/
def stampVerdict (record : Dict) : Except PyError Dict := do
  let report ← lookup board.reports.latest (Dict.get record "txn_id" .null)
  return Dict.set record "verified" (match report with
    | some report => .bool report.verified
    | none => .null)

/-- Write the decision of an analyst on a record. -/
def stampResolution (record : Dict) : Except PyError Dict := do
  let resolution ← lookup board.resolutions (Dict.get record "txn_id" .null)
  return Dict.set record "resolution" (match resolution with
    | some resolution => .obj resolution.toDict
    | none => .null)

/-- `GET /transactions`. -/
def transactions (n : Int) : Except Failure (List Dict) × Dashboard :=
  match board.consumer with
  | none => (.ok [], board)
  | some consumer =>
      let revised := consumer.committedBuffer.revise n board.stampVerdict
      let after := { board with consumer := some { consumer with committedBuffer := revised.2 } }
      (match revised.1 with
        | .error error => .error (.raised error)
        | .ok _ => .ok (after.committed n),
        after)

/-- `GET /anomalies`. -/
def anomalies (n : Int) : Except Failure (List Dict) × Dashboard :=
  match board.consumer with
  | none => (.ok [], board)
  | some consumer =>
      let revised := consumer.anomalyBuffer.revise n board.stampResolution
      let after := { board with consumer := some { consumer with anomalyBuffer := revised.2 } }
      (match revised.1 with
        | .error error => .error (.raised error)
        | .ok _ => .ok (after.recentAnomalies n),
        after)

/-- `GET /chain/verify`. -/
def chainVerify (n : Int) : Except PyError Commitment.ChainReport :=
  Commitment.walkChain P "CHAIN_HASH_MISMATCH" "no records received yet" (board.committed n)

structure LedgerExport where
  records : List Dict
  count : Nat
  chain : Commitment.ChainReport
  signingKeyId : Json
  lweFingerprint : Json
  piiBytes : Int

/-- `GET /ledger/export`. -/
def exportLedger (n : Int) : Except Failure LedgerExport :=
  match board.chainVerify P n with
  | .error error => .error (.raised error)
  | .ok chain =>
      .ok { records := board.committed n
            count := (board.committed n).length
            chain
            signingKeyId := Dict.get board.proverKeys "signing_key_id" .null
            lweFingerprint := Dict.get board.proverKeys "lwe_fingerprint" .null
            piiBytes := 0 }

/-! ## Requests with a body -/

structure ResolveRequest where
  action : PyStr
  resolvedBy : PyStr
  note : PyStr

/-- `POST /resolve/{txn_id}`. -/
def resolve (txnId : PyStr) (req : ResolveRequest) (nowNs : Int) :
    Except Failure Dict × Dashboard :=
  if req.action ≠ PyStr.ofString "AUTHORIZE" ∧ req.action ≠ PyStr.ofString "TERMINATE" then
    (.error (.http 400 (PyStr.ofString "unknown action: " ++ req.action)), board)
  else
    match board.find txnId with
    | none => (.error (.http 404 (PyStr.ofString "TXN " ++ txnId ++ PyStr.ofString " not found")), board)
    | some _ =>
        let resolution : Resolution :=
          { action := req.action
            resolvedBy := req.resolvedBy
            note := req.note
            resolvedAtNs := nowNs }
        (.ok ((PyStr.ofString "txn_id", .str txnId) :: resolution.toDict ++
            [(PyStr.ofString "pii_bytes", .int 0)]),
          { board with resolutions := assignEntry (.str txnId) resolution board.resolutions })

/-- A selective disclosure, as handed over by the bank for one transaction. -/
structure OpeningRequest where
  txnId : PyStr
  amountCents : Int
  blindingSeedHex : PyStr
  commitmentB64 : Option PyStr
  lwePublicKeyB64 : Option PyStr

structure OpeningVerdict where
  txnId : PyStr
  openingValid : Bool
  detail : PyStr
  verifiedAgainst : PyStr
  trace : List TraceStep

/-- `override or value`: an empty text counts as none. -/
def override (own : Option PyStr) (value : Json) : Json :=
  match own with
  | some text => (Json.str text).orElse value
  | none => value

/-- The answer to a disclosure whose comparison came out as `ok`. -/
def openingVerdict (txnId : PyStr) (ok : Bool) : OpeningVerdict :=
  { txnId
    openingValid := ok
    detail := PyStr.ofString
      (if ok then "the disclosed amount opens the published commitment"
       else "MISMATCH - the disclosed amount does not open this commitment")
    verifiedAgainst := PyStr.ofString "LWE public key " ++
      P.str (Dict.get board.proverKeys "lwe_fingerprint" (Json.text "supplied"))
    trace :=
      [{ step := "LOAD_PUBLIC_KEY"
         detail := PyStr.ofString "seed + t, no secret material"
         status := "DONE" },
       { step := "RECOMPUTE"
         detail := PyStr.ofString "u = A^T.r + e1 ; v = <t,r> + e2 + encode(m)"
         status := "DONE" },
       { step := "COMPARE"
         detail := PyStr.ofString "constant-time comparison against published commitment"
         status := "DONE" },
       { step := "RESULT"
         detail := PyStr.ofString (if ok then "OPENING VALID" else "OPENING INVALID")
         status := if ok then "VERIFIED" else "FAILED" }] }

/-- `POST /verify/opening`. -/
def verifyOpening (req : OpeningRequest) : Except Failure OpeningVerdict :=
  let record := (board.find req.txnId).getD []
  let commitment := override req.commitmentB64 (Dict.get record "commitment_b64" .null)
  if !commitment.truthy then
    .error (.http 404 (PyStr.ofString "no commitment on file for " ++ req.txnId))
  else
    let pubkeyB64 := override req.lwePublicKeyB64 (Dict.get board.proverKeys "lwe_public_key_b64" .null)
    if !pubkeyB64.truthy then
      .error (.http 503 (PyStr.ofString "prover LWE public key unavailable"))
    else
      match LWEPublicKey.fromB64 P pubkeyB64 with
      | .error error =>
          if error.isValueError then
            .error (.http 400 (PyStr.ofString ("malformed public key: " ++ error.message)))
          else .error (.raised error)
      | .ok pubkey =>
          match openCommitment P pubkey commitment req.amountCents req.blindingSeedHex with
          | .error error => .error (.raised error)
          | .ok ok => .ok (board.openingVerdict P req.txnId ok)

/-! ## What can happen to the service -/

/-- Install the keys fetched from the prover. -/
def fetchKeys (proverKeys : Dict) : Dashboard :=
  let verifier :=
    board.reports.verifier.setPublicKey (Dict.get proverKeys "ed25519_public_key_b64" .null)
  { board with proverKeys, reports := { board.reports with verifier } }

/-- A message of the consumer's poll. -/
def deliver (delivery : Delivery) : Dashboard :=
  match board.consumer with
  | none => board
  | some consumer =>
      match consumer.process P (callbacks P) board.reports delivery with
      | (consumer, reports) => { board with consumer := some consumer, reports }

inductive Action where
  | deliver (delivery : Delivery)
  | fetchKeys (proverKeys : Dict)
  | transactions (n : Int)
  | anomalies (n : Int)
  | resolve (txnId : PyStr) (req : ResolveRequest) (nowNs : Int)

/-- The records an action returns, and the service after it. -/
def act : Dashboard -> Action -> List Dict × Dashboard
  | board, .deliver delivery => ([], board.deliver P delivery)
  | board, .fetchKeys proverKeys => ([], board.fetchKeys proverKeys)
  | board, .transactions n =>
      match board.transactions n with
      | (outcome, after) => (outcome.toOption.getD [], after)
  | board, .anomalies n =>
      match board.anomalies n with
      | (outcome, after) => (outcome.toOption.getD [], after)
  | board, .resolve txnId req nowNs => ([], (board.resolve txnId req nowNs).2)

end Dashboard
end Api
end ZeroAudit
