import ZeroAudit.Platform

namespace ZeroAudit
namespace Signature

open Foundation

/-!
# Ed25519 attestation (`prover/crypto/signature.py`)

The fields arrive as decoded JSON values, so a payload is built with the
conversions the source applies and may fail where they fail.  A rejected
signature is an answer, and so is every `ValueError` or `TypeError` on the way
to it.  Other exceptions leave the function, which happens when a field that
is encoded is not a string.
-/

/-- The byte between two fields of a payload. -/
def separator : UInt8 := 0x1f

variable (P : Platform)

/-- The four fields, encoded in order and joined by the separator. -/
def signingPayload (txnId bindingHash timestampNs chainHash : Json) : Except PyError Bytes := do
  let first ← txnId.encode
  let second ← bindingHash.encode
  let third ← (Json.str (P.str timestampNs)).encode
  let fourth ← chainHash.encode
  return List.intercalate [separator] [first, second, third, fourth]

/-- An Ed25519 signing key.  The constructor of the source refuses every seed
of another length, so the length is part of the key. -/
structure SigningKey where
  seed : Bytes
  seed_length : seed.length = 32

namespace SigningKey

/-- `SigningKey(seed)`. -/
def ofSeed (seed : Bytes) : Except PyError SigningKey :=
  if length : seed.length = 32 then .ok ⟨seed, length⟩
  else .error ⟨.valueError, "Ed25519 seed must be exactly 32 bytes"⟩

variable (key : SigningKey)

def publicBytes : Bytes := P.ed25519.publicKey key.seed

def sign (payload : Bytes) : PyStr := Base64.encode (P.ed25519.sign key.seed payload)

def publicKeyB64 : PyStr := Base64.encode (key.publicBytes P)

/-- Short identifier published alongside every signature. -/
def keyId : PyStr := (P.sha3Hex (key.publicBytes P)).take 16

end SigningKey

/-- The fields `sign_commitment` returns for publication. -/
structure Attestation where
  signatureB64 : PyStr
  signingKeyId : PyStr
  sigAlg : PyStr

/-- Sign the fields of a commitment.  What the signing step of the library raises, if it does, is
an argument. -/
def signCommitment (key : SigningKey) (raises : Option PyError) (txnId bindingHash timestampNs chainHash : Json) :
    Except PyError Attestation := do
  let payload ← signingPayload P txnId bindingHash timestampNs chainHash
  match raises with
  | some error => .error error
  | none =>
      return { signatureB64 := key.sign P payload
               signingKeyId := key.keyId P
               sigAlg := PyStr.ofString "Ed25519" }

theorem signCommitment_eq_ok_iff {key : SigningKey} {raises : Option PyError}
    {txnId bindingHash timestampNs chainHash : Json} {attestation : Attestation} :
    signCommitment P key raises txnId bindingHash timestampNs chainHash = .ok attestation ↔
      raises = none ∧ ∃ payload, signingPayload P txnId bindingHash timestampNs chainHash = .ok payload ∧
        attestation = ⟨key.sign P payload, key.keyId P, PyStr.ofString "Ed25519"⟩ := by
  unfold signCommitment
  rw [bind_eq_ok_iff]
  cases raises with
  | some error => simp
  | none => simp [pure, Except.pure, eq_comm]

/-- `Ed25519PublicKey.from_public_bytes`. -/
def fromPublicBytes (raw : Bytes) : Except PyError Bytes :=
  if raw.length = 32 then .ok raw
  else .error ⟨.valueError, "An Ed25519 public key is 32 bytes long"⟩

/-- Verify a published signature using only the public key. -/
def verifySignature (publicKeyB64 signatureB64 txnId bindingHash timestampNs chainHash : Json) :
    Except PyError Bool :=
  let attempt : Except PyError Bool := do
    let raw ← publicKeyB64.b64decode
    let pub ← fromPublicBytes raw
    let signature ← signatureB64.b64decode
    let payload ← signingPayload P txnId bindingHash timestampNs chainHash
    return P.ed25519.verify pub signature payload
  match attempt with
  | .ok accepted => .ok accepted
  | .error error => if error.isValueError || error.isTypeError then .ok false else .error error

/-- Ingress firewall on a raw transaction.  `requireSignature` is the setting
`INGRESS_REQUIRE_SIGNATURE`.  An unsigned record passes where it is off. -/
def verifyTransactionSignature (requireSignature : Bool) (record : Dict) : Except PyError Bool :=
  let sig := Dict.get record "signature_b64" .null
  let pub := Dict.get record "bank_pubkey_b64" .null
  if !sig.truthy || !pub.truthy then .ok !requireSignature
  else
    verifySignature P pub sig (Dict.get record "txn_id" (Json.text ""))
      (Dict.get record "payload_hash" (Json.text "")) (Dict.get record "timestamp_ns" (.int 0))
      (Json.text "")

/-! ## Payloads as texts -/

/-- The separator as a character. -/
def separatorChar : PyChar := .scalar '\x1f'

/-- The payload before it is encoded. -/
def payloadText (txnId bindingHash timestamp chainHash : PyStr) : PyStr :=
  txnId ++ separatorChar :: (bindingHash ++ separatorChar :: (timestamp ++ separatorChar :: chainHash))

private theorem utf8_separated (left right : PyStr) (bytes : Bytes) :
    PyStr.utf8 (left ++ separatorChar :: right) = some bytes ↔
      ∃ first second, PyStr.utf8 left = some first ∧ PyStr.utf8 right = some second ∧
        first ++ separator :: second = bytes := by
  have own : PyStr.utf8Char separatorChar = some [separator] := by decide
  rw [PyStr.utf8_append_eq_some_iff]
  constructor
  · rintro ⟨first, tail, leftBytes, tailBytes, rfl⟩
    rcases (PyStr.utf8_cons_eq_some_iff ..).mp tailBytes with ⟨head, second, headBytes, rest, rfl⟩
    rw [own] at headBytes
    cases headBytes
    exact ⟨first, second, leftBytes, rest, rfl⟩
  · rintro ⟨first, second, leftBytes, rightBytes, rfl⟩
    exact ⟨first, separator :: second, leftBytes,
      (PyStr.utf8_cons_eq_some_iff ..).mpr ⟨_, second, own, rightBytes, rfl⟩, rfl⟩

/-- A payload exists exactly when the three text fields are strings and the
joined text has an encoding, which is then the payload. -/
theorem signingPayload_eq_ok_iff (txnId bindingHash timestampNs chainHash : Json) (bytes : Bytes) :
    signingPayload P txnId bindingHash timestampNs chainHash = .ok bytes ↔
      ∃ id binding chain, txnId = .str id ∧ bindingHash = .str binding ∧ chainHash = .str chain ∧
        PyStr.utf8 (payloadText id binding (P.str timestampNs) chain) = some bytes := by
  unfold signingPayload
  simp only [bind_eq_ok_iff, Json.encode_eq_ok_iff, payloadText, utf8_separated]
  constructor
  · rintro ⟨a, ⟨id, rfl, idBytes⟩, b, ⟨binding, rfl, bindingBytes⟩, c, ⟨_, same, stampBytes⟩, d,
      ⟨chain, rfl, chainBytes⟩, joined⟩
    cases same
    cases joined
    refine ⟨id, binding, chain, rfl, rfl, rfl, a, _, idBytes, ⟨b, _, bindingBytes, ⟨c, d, stampBytes,
      chainBytes, rfl⟩, rfl⟩, ?_⟩
    simp [List.intercalate]
  · rintro ⟨id, binding, chain, rfl, rfl, rfl, a, _, idBytes, ⟨b, _, bindingBytes, ⟨c, d, stampBytes,
      chainBytes, rfl⟩, rfl⟩, rfl⟩
    refine ⟨a, ⟨id, rfl, idBytes⟩, b, ⟨binding, rfl, bindingBytes⟩, c, ⟨_, rfl, stampBytes⟩, d,
      ⟨chain, rfl, chainBytes⟩, ?_⟩
    simp [List.intercalate, pure, Except.pure]

/-- A text without the separator. -/
def SeparatorFree (text : PyStr) : Prop := separatorChar ∉ text

theorem separatorFree_decimal (n : Int) : SeparatorFree (PyStr.decimal n) := by
  intro member
  rcases PyStr.mem_decimal member with ⟨character, same, digit | minus⟩
  · cases same
    exact absurd digit (by decide)
  · cases same
    exact absurd minus (by decide)

theorem separatorFree_of_hexDigits {text : PyStr} (digits : ∀ c ∈ text, isHexDigit c = true) :
    SeparatorFree text := by
  intro member
  exact absurd (digits _ member) (by decide)

/-- Read from the right, a payload determines its fields: the last three hold
no separator, and whatever is left is the transaction id. -/
theorem payloadText_injective {id id' binding binding' stamp stamp' chain chain' : PyStr}
    (bindingFree : SeparatorFree binding) (bindingFree' : SeparatorFree binding')
    (stampFree : SeparatorFree stamp) (stampFree' : SeparatorFree stamp')
    (chainFree : SeparatorFree chain) (chainFree' : SeparatorFree chain')
    (equal : payloadText id binding stamp chain = payloadText id' binding' stamp' chain') :
    id = id' ∧ binding = binding' ∧ stamp = stamp' ∧ chain = chain' := by
  have grouped : ∀ a b c d : PyStr, payloadText a b c d =
      ((a ++ separatorChar :: b) ++ separatorChar :: c) ++ separatorChar :: d := by
    intro a b c d
    simp [payloadText]
  rw [grouped, grouped] at equal
  rcases PyStr.split_last chainFree chainFree' equal with ⟨front, chains⟩
  rcases PyStr.split_last stampFree stampFree' front with ⟨front, stamps⟩
  rcases PyStr.split_last bindingFree bindingFree' front with ⟨ids, bindings⟩
  exact ⟨ids, bindings, stamps, chains⟩

private theorem count_payloadText (id binding stamp chain : PyStr) :
    (payloadText id binding stamp chain).count separatorChar =
      id.count separatorChar + binding.count separatorChar + stamp.count separatorChar +
        chain.count separatorChar + 3 := by
  simp only [payloadText, List.count_append, List.count_cons_self]
  omega

/-- Fields without the separator are the only ones with their payload. -/
theorem payloadText_injective_left {id id' binding binding' stamp stamp' chain chain' : PyStr}
    (idFree : SeparatorFree id) (bindingFree : SeparatorFree binding) (stampFree : SeparatorFree stamp)
    (chainFree : SeparatorFree chain)
    (equal : payloadText id binding stamp chain = payloadText id' binding' stamp' chain') :
    id = id' ∧ binding = binding' ∧ stamp = stamp' ∧ chain = chain' := by
  -- the payload has three separators, so the fields on the other side have none
  have counts := congrArg (List.count separatorChar) equal
  rw [count_payloadText, count_payloadText, List.count_eq_zero.mpr idFree,
    List.count_eq_zero.mpr bindingFree, List.count_eq_zero.mpr stampFree,
    List.count_eq_zero.mpr chainFree] at counts
  refine payloadText_injective bindingFree ?_ stampFree ?_ chainFree ?_ equal
  · exact List.count_eq_zero.mp (by omega)
  · exact List.count_eq_zero.mp (by omega)
  · exact List.count_eq_zero.mp (by omega)

/-! ## Specifications of the two checks -/

/-- What an accepted signature says. -/
theorem verifySignature_eq_true_iff (publicKeyB64 signatureB64 txnId bindingHash timestampNs
    chainHash : Json) :
    verifySignature P publicKeyB64 signatureB64 txnId bindingHash timestampNs chainHash = .ok true ↔
      ∃ raw signature payload, publicKeyB64.b64decode = .ok raw ∧ raw.length = 32 ∧
        signatureB64.b64decode = .ok signature ∧
        signingPayload P txnId bindingHash timestampNs chainHash = .ok payload ∧
        P.ed25519.verify raw signature payload = true := by
  unfold verifySignature fromPublicBytes
  cases publicKeyB64.b64decode with
  | error error => simp only [bind, Except.bind]; split <;> simp
  | ok raw =>
      by_cases length : raw.length = 32
      · cases signatureB64.b64decode with
        | error error => simp only [bind, Except.bind, length, if_true]; split <;> simp
        | ok signature =>
            cases signingPayload P txnId bindingHash timestampNs chainHash with
            | error error => simp only [bind, Except.bind, length, if_true]; split <;> simp
            | ok payload => simp [bind, Except.bind, length, pure, Except.pure]
      · simp [bind, Except.bind, length, PyError.isValueError]

theorem b64decode_publicKeyB64 (key : SigningKey) :
    (Json.str (key.publicKeyB64 P)).b64decode = .ok (key.publicBytes P) :=
  Json.b64decode_encode _

theorem SigningKey.publicKeyB64_ne_nil (key : SigningKey) : key.publicKeyB64 P ≠ [] := by
  apply Base64.encode_ne_nil
  intro empty
  have length := P.ed25519.publicKey_length key.seed
  rw [show P.ed25519.publicKey key.seed = [] from empty] at length
  cases length

theorem SigningKey.sign_ne_nil (key : SigningKey) (payload : Bytes) : key.sign P payload ≠ [] := by
  apply Base64.encode_ne_nil
  intro empty
  have length := P.ed25519.sign_length key.seed payload
  rw [empty] at length
  cases length

/-- A signer's own signature is accepted. -/
theorem verifySignature_sign (key : SigningKey) {txnId bindingHash timestampNs chainHash : Json}
    {payload : Bytes} (built : signingPayload P txnId bindingHash timestampNs chainHash = .ok payload) :
    verifySignature P (.str (key.publicKeyB64 P)) (.str (key.sign P payload)) txnId bindingHash
      timestampNs chainHash = .ok true :=
  (verifySignature_eq_true_iff ..).mpr ⟨_, _, payload, b64decode_publicKeyB64 P key,
    P.ed25519.publicKey_length key.seed, Json.b64decode_encode _, built,
    P.ed25519.verify_sign key.seed payload⟩

end Signature
end ZeroAudit
