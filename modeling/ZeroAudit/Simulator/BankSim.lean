import ZeroAudit.Foundation.JsonText
import ZeroAudit.Prover.Signature
import ZeroAudit.SamplePlatform

namespace ZeroAudit
namespace Simulator

open Foundation Signature

/-!
# The signing bank (`simulator/bank_sim.py`)

The bank hashes the canonical body of a transaction and signs the transaction
id, that hash and the timestamp.  The firewall of the prover rebuilds the
signed payload from the fields of the message it received, the hash included.
It never hashes a body.
-/

variable (P : Platform)

/-- The fields of the canonical body, in the order the source lists them. -/
def BODY_FIELDS : List String :=
  ["txn_id", "account_id", "counterparty_id", "amount_cents", "currency", "txn_type",
    "timestamp_ns"]

/-- How `json.dumps` writes a float. -/
def floatText : PyFloat -> PyStr
  | .nan => PyStr.ofString "NaN"
  | .posInf => PyStr.ofString "Infinity"
  | .negInf => PyStr.ofString "-Infinity"
  | .finite value => P.str (.float (.finite value))

/-- Hash of the canonical transaction body. -/
def payloadHash (txn : Dict) : Except PyError PyStr := do
  let body ← BODY_FIELDS.mapM fun field => do
    let value ← Dict.require txn field
    return (PyStr.ofString field, value)
  let bytes ← (Json.str (Json.dumps (floatText P) (.obj body))).encode
  return P.sha3Hex bytes

/-- `BankSimulator._sign`.  Without a key the transaction goes out unsigned. -/
def sign (key : Option SigningKey) (txn : Dict) : Except PyError Dict :=
  match key with
  | none => .ok txn
  | some key => do
      let hash ← payloadHash P txn
      let txn := Dict.set txn "payload_hash" (.str hash)
      let txnId ← Dict.require txn "txn_id"
      let timestampNs ← Dict.require txn "timestamp_ns"
      let first ← txnId.encode
      let second ← (Json.str hash).encode
      let third ← (Json.str (P.str timestampNs)).encode
      let txn := Dict.set txn "signature_b64"
        (.str (key.sign P (List.intercalate [separator] [first, second, third, []])))
      return Dict.set txn "bank_pubkey_b64" (.str (key.publicKeyB64 P))

/-- The payload the firewall rebuilds from a message. -/
def ingressPayload (message : Dict) : Except PyError Bytes :=
  signingPayload P (Dict.get message "txn_id" (Json.text ""))
    (Dict.get message "payload_hash" (Json.text "")) (Dict.get message "timestamp_ns" (.int 0))
    (Json.text "")

/-! ## What the firewall accepts -/

/-- A message that carries a key and a signature is accepted exactly if the
signature verifies the payload rebuilt from the message. -/
theorem verifyTransactionSignature_iff {requireSignature : Bool} {message : Dict} {key : SigningKey}
    {signature : Bytes} (signed : signature ≠ [])
    (pub : Dict.get message "bank_pubkey_b64" .null = .str (key.publicKeyB64 P))
    (sig : Dict.get message "signature_b64" .null = .str (Base64.encode signature)) :
    verifyTransactionSignature P requireSignature message = .ok true ↔
      ∃ payload, ingressPayload P message = .ok payload ∧
        P.ed25519.verify (key.publicBytes P) signature payload = true := by
  have keyText := SigningKey.publicKeyB64_ne_nil P key
  have signatureText := Base64.encode_ne_nil signed
  unfold verifyTransactionSignature
  simp only [pub, sig, Json.truthy_str, ne_eq, keyText, signatureText, not_false_eq_true, decide_true,
    Bool.not_true, Bool.or_self, Bool.false_eq_true, if_false]
  rw [verifySignature_eq_true_iff]
  constructor
  · rintro ⟨raw, own, payload, decoded, -, signatureBytes, built, accepted⟩
    rw [b64decode_publicKeyB64] at decoded
    rw [Json.b64decode_encode] at signatureBytes
    cases decoded
    cases signatureBytes
    exact ⟨payload, built, accepted⟩
  · rintro ⟨payload, built, accepted⟩
    exact ⟨_, _, payload, b64decode_publicKeyB64 P key, P.ed25519.publicKey_length key.seed,
      Json.b64decode_encode _, built, accepted⟩

/-- The fields the bank writes are the hash of a body, the signature and the key. -/
theorem sign_fields {key : SigningKey} {txn signed : Dict} (signs : sign P (some key) txn = .ok signed) :
    ∃ body, Dict.find signed "payload_hash" = some (.str (P.sha3Hex body)) ∧
      ∀ field, field ∉ ["payload_hash", "signature_b64", "bank_pubkey_b64"] ->
        Dict.find signed field = Dict.find txn field := by
  unfold sign payloadHash at signs
  simp only [bind_eq_ok_iff] at signs
  rcases signs with ⟨hash, ⟨fields, -, body, -, hashed⟩, _, -, _, -, _, -, _, -, _, -, same⟩
  cases same
  cases hashed
  refine ⟨body, by simp [Dict.find_set], ?_⟩
  intro field other
  simp only [List.mem_cons, List.not_mem_nil, or_false, not_or] at other
  rw [Dict.find_set, if_neg (Ne.symm other.2.2), Dict.find_set, if_neg (Ne.symm other.2.1),
    Dict.find_set, if_neg (Ne.symm other.1)]

/-- What the bank puts on a transaction it signs. -/
theorem sign_inversion {key : SigningKey} {txn signed : Dict} (signs : sign P (some key) txn = .ok signed) :
    ∃ payload, ingressPayload P signed = .ok payload ∧
      Dict.get signed "bank_pubkey_b64" .null = .str (key.publicKeyB64 P) ∧
      Dict.get signed "signature_b64" .null =
        .str (Base64.encode (P.ed25519.sign key.seed payload)) := by
  unfold sign at signs
  simp only [bind_eq_ok_iff, Dict.require_eq_ok_iff, Dict.find_set] at signs
  rcases signs with ⟨hash, -, txnId, idFound, timestampNs, timeFound, first, firstBytes, second,
    secondBytes, third, thirdBytes, same⟩
  cases same
  rw [if_neg (by decide)] at idFound timeFound
  refine ⟨List.intercalate [separator] [first, second, third, []], ?_, ?_, ?_⟩
  · have empty : (Json.text "").encode = .ok [] := rfl
    unfold ingressPayload signingPayload
    simp [Dict.get, Dict.find_set, idFound, timeFound, firstBytes, secondBytes, thirdBytes, empty, bind,
      Except.bind, pure, Except.pure]
  · simp [Dict.get, Dict.find_set]
  · simp [Dict.get, Dict.find_set, SigningKey.sign]

/-! ## What the signature covers -/

/-- The three fields of the header, joined as they are signed. -/
def HasHeader (message : Dict) (header : PyStr) : Prop :=
  ∃ id hash, Dict.get message "txn_id" (Json.text "") = .str id ∧
    Dict.get message "payload_hash" (Json.text "") = .str hash ∧
    payloadText id hash (P.str (Dict.get message "timestamp_ns" (.int 0))) [] = header

/-- Both messages have one header. -/
def KeepsHeader (message other : Dict) : Prop :=
  ∃ header, HasHeader P message header ∧ HasHeader P other header

/-- Agreement on every field of the canonical body. -/
def SameBody (message other : Dict) : Prop :=
  ∀ field ∈ BODY_FIELDS, Dict.find message field = Dict.find other field

/-- The signature on a transaction verifies no payload but the one it was made
for, as far as the payload of this message goes. -/
def Unforgeable (key : SigningKey) (signed message : Dict) : Prop :=
  ∀ own other, ingressPayload P signed = .ok own -> ingressPayload P message = .ok other ->
    P.ed25519.verify (key.publicBytes P) (P.ed25519.sign key.seed own) other = true -> other = own

/-- A message carries the signature and the key of a signed transaction. -/
structure CarriesSignature (message signed : Dict) : Prop where
  signature : Dict.get message "signature_b64" .null = Dict.get signed "signature_b64" .null
  publicKey : Dict.get message "bank_pubkey_b64" .null = Dict.get signed "bank_pubkey_b64" .null

/-- The payload is the encoded header. -/
theorem ingressPayload_eq_ok_iff {message : Dict} {payload : Bytes} :
    ingressPayload P message = .ok payload ↔
      ∃ header, HasHeader P message header ∧ PyStr.utf8 header = some payload := by
  unfold ingressPayload HasHeader
  rw [signingPayload_eq_ok_iff]
  constructor
  · rintro ⟨id, hash, chain, idEq, hashEq, chainEq, bytes⟩
    cases chainEq
    exact ⟨_, ⟨id, hash, idEq, hashEq, rfl⟩, bytes⟩
  · rintro ⟨_, ⟨id, hash, idEq, hashEq, rfl⟩, bytes⟩
    exact ⟨id, hash, _, idEq, hashEq, rfl, bytes⟩

/-- A message keeps a header that was signed exactly if its payload is the one
that was signed. -/
theorem keepsHeader_iff_payload {message other : Dict} {payload : Bytes}
    (built : ingressPayload P other = .ok payload) :
    KeepsHeader P message other ↔ ingressPayload P message = .ok payload := by
  rcases (ingressPayload_eq_ok_iff P).mp built with ⟨header, own, bytes⟩
  rw [ingressPayload_eq_ok_iff]
  constructor
  · rintro ⟨kept, keeps, ⟨id, hash, idEq, hashEq, joined⟩⟩
    rcases own with ⟨_, _, idEq', hashEq', joined'⟩
    cases idEq.symm.trans idEq'
    cases hashEq.symm.trans hashEq'
    rw [joined'.symm.trans joined] at bytes
    exact ⟨kept, keeps, bytes⟩
  · rintro ⟨kept, keeps, keptBytes⟩
    have same : kept = header := PyStr.utf8_injective keptBytes bytes
    subst kept
    exact ⟨header, keeps, own⟩

section Ingress

variable {P} {key : SigningKey} {txn signed message : Dict}

/-- A message that carries the signature of a transaction is accepted exactly if
it keeps the header that was signed. -/
theorem verifyTransactionSignature_iff_keepsHeader (requireSignature : Bool)
    (signs : sign P (some key) txn = .ok signed) (carries : CarriesSignature message signed)
    (unforgeable : Unforgeable P key signed message) :
    verifyTransactionSignature P requireSignature message = .ok true ↔ KeepsHeader P message signed := by
  rcases sign_inversion P signs with ⟨own, ownBuilt, pub, sig⟩
  have signature : P.ed25519.sign key.seed own ≠ [] := by
    intro empty
    have length := P.ed25519.sign_length key.seed own
    rw [empty] at length
    cases length
  rw [verifyTransactionSignature_iff P signature (carries.publicKey.trans pub)
    (carries.signature.trans sig), keepsHeader_iff_payload P ownBuilt]
  constructor
  · rintro ⟨payload, built, accepted⟩
    rw [built, unforgeable own payload ownBuilt built accepted]
  · intro built
    exact ⟨own, built, P.ed25519.verify_sign key.seed own⟩

/-- A message with the header that was signed is no forgery. -/
theorem unforgeable_of_keepsHeader (keeps : KeepsHeader P message signed) :
    Unforgeable P key signed message := by
  intro own other ownBuilt otherBuilt _
  rw [keepsHeader_iff_payload P ownBuilt, otherBuilt] at keeps
  exact Except.ok.inj keeps

/-- The firewall accepts what the bank signed. -/
theorem verifyTransactionSignature_sign (requireSignature : Bool)
    (signs : sign P (some key) txn = .ok signed) :
    verifyTransactionSignature P requireSignature signed = .ok true := by
  rcases sign_inversion P signs with ⟨own, ownBuilt, -, -⟩
  have keeps : KeepsHeader P signed signed := (keepsHeader_iff_payload P ownBuilt).mpr ownBuilt
  exact (verifyTransactionSignature_iff_keepsHeader requireSignature signs ⟨rfl, rfl⟩
    (unforgeable_of_keepsHeader keeps)).mpr keeps

/-- For an id without the separator and an integer timestamp, as the bank makes
them, a message keeps the header exactly if it keeps the id, the hash, and the
text of the timestamp.  Every other field of a message is free. -/
theorem keepsHeader_iff {id : PyStr} {stamp : Int} (signs : sign P (some key) txn = .ok signed)
    (hasId : Dict.find txn "txn_id" = some (.str id)) (free : SeparatorFree id)
    (hasStamp : Dict.find txn "timestamp_ns" = some (.int stamp)) :
    KeepsHeader P message signed ↔
      Dict.get message "txn_id" (Json.text "") = .str id ∧
      Dict.get message "payload_hash" (Json.text "") = Dict.get signed "payload_hash" (Json.text "") ∧
      P.str (Dict.get message "timestamp_ns" (.int 0)) = PyStr.decimal stamp := by
  rcases sign_fields P signs with ⟨body, found, others⟩
  have signedId : Dict.get signed "txn_id" (Json.text "") = .str id :=
    Dict.get_of_find ((others "txn_id" (by decide)).trans hasId)
  have signedStamp : Dict.get signed "timestamp_ns" (.int 0) = .int stamp :=
    Dict.get_of_find ((others "timestamp_ns" (by decide)).trans hasStamp)
  have signedHash : Dict.get signed "payload_hash" (Json.text "") = .str (P.sha3Hex body) :=
    Dict.get_of_find found
  unfold KeepsHeader HasHeader
  rw [signedId, signedHash, signedStamp]
  constructor
  · rintro ⟨_, ⟨otherId, hash, idEq, hashEq, rfl⟩, _, _, same, same', joined⟩
    cases same
    cases same'
    rcases payloadText_injective_left free
      (separatorFree_of_hexDigits fun c member => P.isHexDigit_of_mem_sha3Hex member)
      (separatorFree_decimal stamp) List.not_mem_nil joined with ⟨ids, hashes, stamps, -⟩
    rw [idEq, hashEq, ids, hashes]
    exact ⟨rfl, rfl, stamps.symm⟩
  · rintro ⟨ids, hashes, stamps⟩
    refine ⟨_, ⟨id, P.sha3Hex body, ids, hashes, rfl⟩, id, P.sha3Hex body, rfl, rfl, ?_⟩
    rw [stamps, P.str_int]

/-- Rewriting a field outside the header keeps it. -/
theorem keepsHeader_set (signs : sign P (some key) txn = .ok signed) {field : String}
    (outside : field ∉ ["txn_id", "payload_hash", "timestamp_ns"]) (value : Json) :
    KeepsHeader P (Dict.set signed field value) signed := by
  rcases sign_inversion P signs with ⟨own, ownBuilt, -, -⟩
  rw [keepsHeader_iff_payload P ownBuilt]
  simp only [List.mem_cons, List.not_mem_nil, or_false, not_or] at outside
  rcases outside with ⟨notId, notHash, notStamp⟩
  simpa [ingressPayload, Dict.get, Dict.find_set, notId, notHash, notStamp] using ownBuilt

theorem carriesSignature_set {field : String} (outside : field ∉ ["signature_b64", "bank_pubkey_b64"])
    (signed : Dict) (value : Json) : CarriesSignature (Dict.set signed field value) signed := by
  simp only [List.mem_cons, List.not_mem_nil, or_false, not_or] at outside
  rcases outside with ⟨notSignature, notKey⟩
  constructor
  · simp [Dict.get, Dict.find_set, notSignature]
  · simp [Dict.get, Dict.find_set, notKey]

/-- A transaction the bank signed passes the firewall.  A message with its
signature is accepted only with the body that was signed, exactly if it changes
the header or leaves the body alone. -/
theorem ingress_authentic_iff (requireSignature : Bool) (signs : sign P (some key) txn = .ok signed)
    (carries : CarriesSignature message signed) (unforgeable : Unforgeable P key signed message) :
    verifyTransactionSignature P requireSignature signed = .ok true ∧
      ((verifyTransactionSignature P requireSignature message = .ok true -> SameBody message signed) ↔
        (¬KeepsHeader P message signed ∨ SameBody message signed)) := by
  refine ⟨verifyTransactionSignature_sign requireSignature signs, ?_⟩
  rw [verifyTransactionSignature_iff_keepsHeader requireSignature signs carries unforgeable]
  exact imp_iff_not_or

end Ingress

/-! ## A changed amount -/

def sampleTransaction (amountCents : Int) : Dict :=
  [(PyStr.ofString "txn_id", .str Sample.txnId), (PyStr.ofString "account_id", Json.text "ACC-1001"),
    (PyStr.ofString "counterparty_id", Json.text "ACC-1002"),
    (PyStr.ofString "amount_cents", .int amountCents), (PyStr.ofString "currency", Json.text "INR"),
    (PyStr.ofString "txn_type", Json.text "RTGS"), (PyStr.ofString "timestamp_ns", .int 1)]

theorem length_sampleBankSeed : (List.replicate 32 (5 : UInt8)).length = 32 := rfl

def sampleBankKey : SigningKey := ⟨List.replicate 32 5, length_sampleBankSeed⟩

theorem signs_sampleTransaction :
    ∃ signed, sign samplePlatform (some sampleBankKey) (sampleTransaction 500) = .ok signed := by
  have succeeds :
      (sign samplePlatform (some sampleBankKey) (sampleTransaction 500)).toOption.isSome = true := by
    decide +kernel
  cases ran : sign samplePlatform (some sampleBankKey) (sampleTransaction 500) with
  | error error =>
      rw [ran] at succeeds
      cases succeeds
  | ok signed => exact ⟨signed, rfl⟩

/-- The equivalence where the amount of a signed transaction is rewritten. -/
theorem ingress_authentic_iff_amount : ∃ signed,
    sign samplePlatform (some sampleBankKey) (sampleTransaction 500) = .ok signed ∧
    verifyTransactionSignature samplePlatform true signed = .ok true ∧
      ((verifyTransactionSignature samplePlatform true (Dict.set signed "amount_cents" (.int 900)) =
          .ok true -> SameBody (Dict.set signed "amount_cents" (.int 900)) signed) ↔
        (¬KeepsHeader samplePlatform (Dict.set signed "amount_cents" (.int 900)) signed ∨
          SameBody (Dict.set signed "amount_cents" (.int 900)) signed)) := by
  rcases signs_sampleTransaction with ⟨signed, signs⟩
  refine ⟨signed, signs, ingress_authentic_iff true signs (carriesSignature_set (by decide) signed _) ?_⟩
  exact unforgeable_of_keepsHeader (keepsHeader_set signs (by decide) _)

/-- Five rupees signed by the bank arrive as nine and pass the firewall. -/
theorem tampered_amount_accepted : ∃ signed,
    sign samplePlatform (some sampleBankKey) (sampleTransaction 500) = .ok signed ∧
    CarriesSignature (Dict.set signed "amount_cents" (.int 900)) signed ∧
    Unforgeable samplePlatform sampleBankKey signed (Dict.set signed "amount_cents" (.int 900)) ∧
    verifyTransactionSignature samplePlatform true (Dict.set signed "amount_cents" (.int 900)) =
      .ok true ∧
    ¬SameBody (Dict.set signed "amount_cents" (.int 900)) signed := by
  rcases signs_sampleTransaction with ⟨signed, signs⟩
  have carries : CarriesSignature (Dict.set signed "amount_cents" (.int 900)) signed :=
    carriesSignature_set (by decide) signed _
  have keeps : KeepsHeader samplePlatform (Dict.set signed "amount_cents" (.int 900)) signed :=
    keepsHeader_set signs (by decide) _
  have unforgeable :
      Unforgeable samplePlatform sampleBankKey signed (Dict.set signed "amount_cents" (.int 900)) :=
    unforgeable_of_keepsHeader keeps
  refine ⟨signed, signs, carries, unforgeable, ?_, ?_⟩
  · exact (verifyTransactionSignature_iff_keepsHeader true signs carries unforgeable).mpr keeps
  · intro same
    have amounts := same "amount_cents" (by decide)
    rcases sign_fields samplePlatform signs with ⟨-, -, others⟩
    rw [Dict.find_set, if_pos rfl, others "amount_cents" (by decide)] at amounts
    simp [sampleTransaction] at amounts

end Simulator
end ZeroAudit
