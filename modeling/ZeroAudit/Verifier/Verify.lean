import Mathlib.Data.List.Infix
import ZeroAudit.Prover.Commitment

namespace ZeroAudit
namespace Verify

open Foundation Signature Commitment

/-!
# External verification of published commitments (`verifier/verify.py`)

The five checks are five functions of the record, each with the counters its
outcome moves.  `verifyEnvelope` runs them in the order of the source on an
explicit verifier state.  A check that raises ends the run where it stands:
the counters of the checks before it have moved, and so has the tracked chain
if the link check was passed.
-/

variable (P : Platform)

/-- The agreed parameter profile. -/
def EXPECTED_LWE : List (String × Int) := [("n", 256), ("k", 2), ("q", 3329), ("eta", 2)]

/-- Fields that must never appear in a DMZ envelope. -/
def FORBIDDEN_FIELDS : List String :=
  ["amount", "amount_cents", "account_id", "counterparty_id", "currency", "metadata",
    "payload_hash"]

/-! ## State -/

inductive StatKey where
  | records
  | verified
  | failed
  | signatureOk
  | signatureFailed
  | signatureUnchecked
  | bindingOk
  | bindingFailed
  | chainOk
  | chainBroken
  | lweOk
  | lweFailed
  | piiOk
  | piiFailed
  deriving DecidableEq

abbrev Stats := StatKey -> Nat

/-- `stats[key] += 1`. -/
def Stats.bump (stats : Stats) (key : StatKey) : Stats :=
  fun other => if other = key then stats other + 1 else stats other

structure ExternalVerifier where
  /-- The installed public key as it was fetched, `None` before that. -/
  pubkey : Json
  /-- The chain hash the next record has to name, once a record was accepted. -/
  expectedPrev : Option PyStr
  lastSeq : Json
  stats : Stats

namespace ExternalVerifier

def new (ed25519PublicKeyB64 : Json) : ExternalVerifier :=
  { pubkey := ed25519PublicKeyB64, expectedPrev := none, lastSeq := .null, stats := fun _ => 0 }

variable (verifier : ExternalVerifier)

def setPublicKey (pubkeyB64 : Json) : ExternalVerifier := { verifier with pubkey := pubkeyB64 }

def hasKey : Bool := verifier.pubkey.truthy

/-- Forget the tracked head. -/
def resetChain : ExternalVerifier := { verifier with expectedPrev := none, lastSeq := .null }

end ExternalVerifier

/-! ## Findings -/

inductive Check where
  | signature
  | bindingHash
  | chainLink
  | lweParams
  | piiAssertion
  deriving DecidableEq

inductive CheckStatus where
  | pass
  | fail
  | skip
  deriving DecidableEq

/-- One entry of the report, with the counter it moved, if any. -/
structure Finding where
  check : Check
  status : CheckStatus
  detail : PyStr
  counter : Option StatKey

/-- `note(name, ok, detail, ok_key, fail_key)`. -/
def note (check : Check) (ok : Bool) (detail : PyStr) (okKey failKey : StatKey) : Finding :=
  { check
    status := if ok then .pass else .fail
    detail
    counter := some (if ok then okKey else failKey) }

/-! ## The five checks -/

/-- Ed25519 over the four signed fields, skipped while no key is installed. -/
def checkSignature (pubkey : Json) (record : Dict) : Except PyError Finding :=
  let signature := Dict.get record "signature_b64" (Json.text "")
  if !pubkey.truthy then
    .ok { check := .signature
          status := .skip
          detail := PyStr.ofString "prover public key not yet retrieved"
          counter := some .signatureUnchecked }
  else if !signature.truthy then
    .ok (note .signature false (PyStr.ofString "record carries no signature")
      .signatureOk .signatureFailed)
  else do
    let ok ← verifySignature P pubkey signature (Dict.get record "txn_id" (Json.text ""))
      (Dict.get record "binding_hash" (Json.text "")) (Dict.get record "timestamp_ns" (.int 0))
      (Dict.get record "chain_hash" (Json.text ""))
    return note .signature ok
      (PyStr.ofString (if ok then "Ed25519 verified against prover public key"
        else "signature does not verify - forged or tampered"))
      .signatureOk .signatureFailed

/-- `c in "0123456789abcdef"`: a substring test on a string, an error on
anything else. -/
def inHexDigits : Json -> Except PyError Bool
  | .str own => .ok (decide (own <:+: PyStr.ofString "0123456789abcdef"))
  | value => .error ⟨.typeError, "'in <string>' requires string as left operand, not " ++
      value.typeName⟩

/-- `all(c in "0123456789abcdef" for c in items)`. -/
def allHexDigits : List Json -> Except PyError Bool
  | [] => .ok true
  | item :: rest => do
      let inside ← inHexDigits item
      if inside then allHexDigits rest else return false

/-- The shape test made when no commitment was published. -/
def hexShaped (advertised : Json) : Except PyError Bool :=
  let shaped (items : List Json) : Except PyError Bool :=
    if items.length = 64 then allHexDigits items else .ok false
  match advertised with
  | .str own => shaped (own.map fun c => .str [c])
  | .arr items => shaped items
  | .obj fields => shaped (fields.map fun field => .str field.1)
  | value => .error ⟨.typeError, "object of type '" ++ value.typeName ++ "' has no len()"⟩

/-- SHA3-256 of the published commitment against the advertised hash. -/
def checkBinding (record : Dict) : Except PyError Finding :=
  let commitmentB64 := Dict.get record "commitment_b64" (Json.text "")
  let advertised := Dict.get record "binding_hash" (Json.text "")
  if commitmentB64.truthy then
    match commitmentB64.b64decode with
    | .ok blob =>
        let ok := advertised.eqStr (P.sha3Hex blob)
        .ok (note .bindingHash ok
          (PyStr.ofString (if ok then "SHA3-256(commitment) matches binding_hash"
            else "binding_hash does not match the published commitment"))
          .bindingOk .bindingFailed)
    | .error error =>
        .ok (note .bindingHash false (PyStr.ofString ("undecodable commitment: " ++ error.message))
          .bindingOk .bindingFailed)
  else do
    let ok ← hexShaped advertised
    return { check := .bindingHash
             status := if ok then .pass else .fail
             detail := PyStr.ofString "format-only: no commitment published to recompute against"
             counter := none }

/-- What the link check finds, in a state that expects `expectedPrev`. -/
def checkLink (expectedPrev : Option PyStr) (record : Dict) : Except PyError Finding := do
  let prev := Dict.get record "prev_chain_hash" (Json.text "")
  let expectedChain ← computeChainHash P prev (Dict.get record "binding_hash" (Json.text ""))
    (Dict.get record "txn_id" (Json.text "")) (Dict.get record "timestamp_ns" (.int 0))
  let recomputes := (Dict.get record "chain_hash" (Json.text "")).eqStr expectedChain
  if recomputes then
    match expectedPrev with
    | some expected =>
        if prev.eqStr expected then
          return note .chainLink true (PyStr.ofString "chain_hash recomputes correctly")
            .chainOk .chainBroken
        else
          -- a link was computed from `prev`, so it is a string
          let shown : PyStr := match prev with
            | .str own => own
            | _ => []
          return note .chainLink false
            (PyStr.ofString "predecessor mismatch: expected " ++ expected.take 12 ++
              PyStr.ofString "... got " ++ shown.take 12 ++ PyStr.ofString "...")
            .chainOk .chainBroken
    | none =>
        return note .chainLink true (PyStr.ofString "chain_hash recomputes correctly")
          .chainOk .chainBroken
  else
    return note .chainLink false
      (PyStr.ofString "chain_hash does not recompute from this record's fields")
      .chainOk .chainBroken

/-- Parameters against the agreed profile. -/
def checkLwe (record : Dict) : Except PyError Finding := do
  let value := (Dict.get record "lwe_params" (.obj [])).orElse (.obj [])
  let params ← value.asDict
  let ok := EXPECTED_LWE.all fun (key, expected) => (Dict.get params key .null).eqInt expected
  return note .lweParams ok
    (if ok then PyStr.ofString
        "params match the agreed profile: \x7b'n': 256, 'k': 2, 'q': 3329, 'eta': 2\x7d"
      else PyStr.ofString "unexpected parameters: " ++ P.str value)
    .lweOk .lweFailed

/-- No amount-bearing field, and a zero `pii_bytes`. -/
def checkPii (record : Dict) : Finding :=
  let leaked := FORBIDDEN_FIELDS.filter fun field => Dict.has record field
  let ok := (Dict.get record "pii_bytes" (.int 0)).eqInt 0 && leaked.isEmpty
  note .piiAssertion ok
    (if ok then PyStr.ofString "pii_bytes=0, no amount-bearing fields present"
      else PyStr.ofString "PII LEAK: " ++
        (if leaked.isEmpty then PyStr.ofString "pii_bytes != 0"
          else P.str (.arr (leaked.map Json.text))))
    .piiOk .piiFailed

/-! ## The run over one envelope -/

structure Report where
  txnId : Json
  verified : Bool
  checks : List Finding
  piiBytes : Int

/-- Move the counter of a finding. -/
def ExternalVerifier.record (verifier : ExternalVerifier) (finding : Finding) : ExternalVerifier :=
  match finding.counter with
  | some key => { verifier with stats := verifier.stats.bump key }
  | none => verifier

/-- Advance the tracked chain past a record whose link check was passed. -/
def ExternalVerifier.track (verifier : ExternalVerifier) (record : Dict) (link : Finding) :
    ExternalVerifier :=
  if link.status = .pass then
    { verifier with
      expectedPrev := match Dict.get record "chain_hash" (Json.text "") with
        | .str chainHash => some chainHash
        | _ => none
      lastSeq := Dict.get record "seq" .null }
  else verifier

/-- Run one check; an exception leaves the state as it is. -/
def stage (attempt : Except PyError Finding) (verifier : ExternalVerifier)
    (next : Finding -> ExternalVerifier -> Except PyError Report × ExternalVerifier) :
    Except PyError Report × ExternalVerifier :=
  match attempt with
  | .ok finding => next finding (verifier.record finding)
  | .error error => (.error error, verifier)

/-- The verdict, and the last two counters. -/
def conclude (record : Dict) (checks : List Finding) (verifier : ExternalVerifier) :
    Except PyError Report × ExternalVerifier :=
  let failed := checks.any fun finding => decide (finding.status = .fail)
  let stats := (verifier.stats.bump .records).bump (if failed then .failed else .verified)
  (.ok { txnId := Dict.get record "txn_id" (Json.text "")
         verified := !failed
         checks
         piiBytes := 0 },
    { verifier with stats })

/-- Run every check against one published record. -/
def verifyEnvelope (verifier : ExternalVerifier) (record : Dict) :
    Except PyError Report × ExternalVerifier :=
  stage (checkSignature P verifier.pubkey record) verifier fun signature verifier =>
  stage (checkBinding P record) verifier fun binding verifier =>
  let attempt := checkLink P verifier.expectedPrev record
  let tracked := match attempt with
    | .ok link => verifier.track record link
    | .error _ => verifier
  stage attempt tracked fun link verifier =>
  stage (checkLwe P record) verifier fun lwe verifier =>
  stage (.ok (checkPii P record)) verifier fun pii verifier =>
  conclude record [signature, binding, link, lwe, pii] verifier

/-! ## Metrics -/

structure StatsSnapshot where
  counters : Stats
  chainHead : PyStr
  lastSeq : Json
  hasProverKey : Bool
  integrityPct : PyFloat

def ExternalVerifier.statsSnapshot (verifier : ExternalVerifier) : StatsSnapshot :=
  let head := verifier.expectedPrev.getD []
  let total := max (verifier.stats .records) 1
  { counters := verifier.stats
    chainHead := if head = [] then GENESIS_HASH else head
    lastSeq := verifier.lastSeq
    hasProverKey := verifier.pubkey.truthy
    integrityPct := (PyFloat.finite (100 * verifier.stats .verified / total)).round 2 }

/-- One-shot verification without chain context. -/
def verifyCommitment (record : Dict) : Except PyError Report :=
  (verifyEnvelope P (ExternalVerifier.new .null) record).1

end Verify
end ZeroAudit
