import ZeroAudit.Platform

namespace ZeroAudit
namespace Lwe

open Foundation

/-!
# Module-LWE commitments (`prover/crypto/lwe.py`)

Coefficient lists are lists of integers, as in the source, and every loop is
written with the updates the source makes.  Operations that may raise return
`Except`.  Coefficients are not packed silently: a word outside 16 bits is a
`struct.error`, so that a successful commitment also says that every
coefficient was in range.
-/

variable (P : Platform)

/-! ## Parameters -/

/-- Polynomial degree. -/
def N : Nat := 256

/-- Module rank. -/
def K : Nat := 2

/-- Prime modulus. -/
def Q : Nat := 3329

/-- Centered binomial noise parameter. -/
def ETA : Nat := 2

def SEED_LEN : Nat := 32

def AMOUNT_BITS : Nat := 64

abbrev Poly := List Int

/-! ## Ring arithmetic -/

def zeroPoly : Poly := List.replicate N 0

def polyAdd (a b : Poly) : Poly := List.zipWith (fun x y => (x + y) % (Q : Int)) a b

/-- One pass of the inner loop: `result[idx]` is rewritten in place, with the
sign flipped where the exponent passes `N`. -/
def schoolbookStep (a b : Poly) (i : Nat) (result : Poly) (j : Nat) : Poly :=
  let idx := i + j
  if N ≤ idx then
    result.set (idx - N) ((result.getD (idx - N) 0 - a.getD i 0 * b.getD j 0) % (Q : Int))
  else
    result.set idx ((result.getD idx 0 + a.getD i 0 * b.getD j 0) % (Q : Int))

/-- The reference multiplication: a zero coefficient of `a` skips its row. -/
def polyMulSchoolbook (a b : Poly) : Poly :=
  (List.range N).foldl
    (fun result i =>
      if a.getD i 0 = 0 then result
      else (List.range N).foldl (schoolbookStep a b i) result)
    zeroPoly

/-- An `int64` result: two's-complement wrap-around. -/
def wrap64 (x : Int) : Int := Int.bmod x (2 ^ 64)

/-- The convolution path: fold the high half back, then reduce. -/
def polyMulNumpy (a b : Poly) : Poly :=
  let conv := P.convolve a b
  let folded := (List.range N).map fun i =>
    if i < N - 1 then wrap64 (conv.getD i 0 - conv.getD (N + i) 0) else conv.getD i 0
  folded.map (· % (Q : Int))

def polyMul (a b : Poly) : Poly :=
  if P.numpy then polyMulNumpy P a b else polyMulSchoolbook a b

/-- `<t, r>`, accumulated from the zero polynomial. -/
def innerProduct (t r : List Poly) : Poly :=
  (List.range K).foldl (fun acc i => polyAdd acc (polyMul P (t.getD i []) (r.getD i []))) zeroPoly

/-- `A.s + e`, one row at a time. -/
def moduleMulAdd (A : List (List Poly)) (s e : List Poly) : List Poly :=
  (List.range K).map fun i => polyAdd (innerProduct P (A.getD i []) s) (e.getD i [])

/-! ## Samplers -/

/-- `struct.pack("<H", nonce & 0xFFFF)`. -/
def packNonce (nonce : Nat) : Bytes :=
  let word := nonce % 65536
  [UInt8.ofNat (word % 256), UInt8.ofNat (word / 256)]

/-- Centered binomial sampler: four bits a coefficient, two coefficients a byte. -/
def cbd (seed : Bytes) (nonce length : Nat) : Poly :=
  let buf := P.shake256 (seed ++ packNonce nonce) ((length + 1) / 2)
  (List.range length).map fun i =>
    let byte := (buf.getD (i / 2) 0).toNat
    let nib := if i % 2 = 0 then byte % 16 else byte / 16
    let a := nib % 2 + nib / 2 % 2
    let b := nib / 4 % 2 + nib / 8 % 2
    ((a : Int) - (b : Int)) % (Q : Int)

/-- The rejection loop: twelve-bit candidates from byte pairs until `need`
coefficients are found, and zeros where the buffer runs out. -/
def rejectionSample : Nat -> Bytes -> Poly
  | need + 1, low :: high :: rest =>
      let val := (low.toNat + 256 * high.toNat) % 4096
      if val < Q then (val : Int) :: rejectionSample need rest
      else rejectionSample (need + 1) rest
  | need, _ => List.replicate need 0

/-- Expand the public matrix from a seed. -/
def genMatrixA (seed : Bytes) : List (List Poly) :=
  (List.range K).map fun i =>
    (List.range K).map fun j =>
      rejectionSample N (P.shake128 (seed ++ [UInt8.ofNat i, UInt8.ofNat j]) (N * 3 + 64))

/-! ## Key material -/

/-- `struct.pack("<%dH" % len(flat), *flat)`. -/
def pack (flat : Poly) : Except PyError Bytes :=
  match packWords flat with
  | some bytes => .ok bytes
  | none => .error ⟨.structError, "'H' format requires 0 <= number <= 65535"⟩

structure LWEKeyPair where
  seed : Bytes
  A : List (List Poly)
  s : List Poly
  e : List Poly
  t : List Poly

/-- `LWEKeyPair(seed)` for a non-empty seed; an empty one is replaced by
random bytes before this runs. -/
def LWEKeyPair.generate (seed : Bytes) : LWEKeyPair :=
  let A := genMatrixA P seed
  let s := (List.range K).map fun i => cbd P seed i N
  let e := (List.range K).map fun i => cbd P seed (K + i) N
  { seed, A, s, e, t := moduleMulAdd P A s e }

namespace LWEKeyPair

/-- Public key: the seed followed by `t`. -/
def publicKeyBytes (keypair : LWEKeyPair) : Except PyError Bytes := do
  let packed ← pack keypair.t.flatten
  return keypair.seed ++ packed

def publicKeyB64 (keypair : LWEKeyPair) : Except PyError PyStr := do
  let bytes ← keypair.publicKeyBytes
  return Base64.encode bytes

def fingerprint (keypair : LWEKeyPair) : Except PyError PyStr := do
  let bytes ← keypair.publicKeyBytes
  return (P.sha3Hex bytes).take 16

end LWEKeyPair

/-- The auditor's view: `A` and `t`, never `s`. -/
structure LWEPublicKey where
  seed : Bytes
  t : List Poly
  A : List (List Poly)

namespace LWEPublicKey

/-- `LWEPublicKey(blob)`. -/
def parse (blob : Bytes) : Except PyError LWEPublicKey :=
  if blob.length ≠ SEED_LEN + K * N * 2 then
    .error ⟨.valueError, "malformed public key: " ++ toString blob.length ++ " bytes"⟩
  else
    match unpackWords (blob.drop SEED_LEN) with
    | none => .error ⟨.structError, "unpack requires a buffer of 1024 bytes"⟩
    | some flat =>
        let seed := blob.take SEED_LEN
        .ok { seed
              t := (List.range K).map fun i => (flat.drop (i * N)).take N
              A := genMatrixA P seed }

def fromB64 (b64 : Json) : Except PyError LWEPublicKey := do
  let blob ← b64.b64decode
  parse P blob

end LWEPublicKey

/-! ## Message encoding -/

/-- One bit of the amount per coefficient, scaled by `Q // 2`. -/
def encodeAmount (amountCents : Int) : Except PyError Poly :=
  if amountCents < 0 then
    .error ⟨.valueError, "amount_cents must be non-negative"⟩
  else if amountCents ≥ 2 ^ AMOUNT_BITS then
    .error ⟨.valueError, "amount_cents exceeds the 64-bit commitment domain"⟩
  else
    .ok ((List.range AMOUNT_BITS).foldl
      (fun m bit =>
        if (amountCents.toNat >>> bit) &&& 1 ≠ 0 then m.set bit ((Q / 2 : Nat) : Int) else m)
      zeroPoly)

/-! ## Commitment -/

/-- Blinding seed: HMAC-SHA256 of the transaction id under the master key. -/
def deriveRandomness (masterKey : Bytes) (txnId : Json) : Except PyError Bytes := do
  let message ← txnId.encode
  return P.hmacSha256 masterKey message

/-- The blinding vector and error terms a blinding seed determines. -/
def blindingVector (rSeed : Bytes) : List Poly := (List.range K).map fun i => cbd P rSeed i N

def errorVector (rSeed : Bytes) : List Poly := (List.range K).map fun i => cbd P rSeed (K + i) N

def errorPoly (rSeed : Bytes) : Poly := cbd P rSeed (2 * K) N

/-- The transpose the kernel builds entry by entry. -/
def transpose (A : List (List Poly)) : List (List Poly) :=
  (List.range K).map fun i => (List.range K).map fun j => (A.getD j []).getD i []

/-- The commitment kernel shared by prover and verifier. -/
def commitCore (A : List (List Poly)) (t : List Poly) (amountCents : Int) (rSeed : Bytes) :
    Except PyError Bytes := do
  let rVec := blindingVector P rSeed
  let u := moduleMulAdd P (transpose A) rVec (errorVector P rSeed)
  let v := polyAdd (innerProduct P t rVec) (errorPoly P rSeed)
  let m ← encodeAmount amountCents
  pack (u.flatten ++ polyAdd v m)

/-- The parameters every record advertises. -/
def lweParams : Json :=
  .obj [(PyStr.ofString "n", .int N), (PyStr.ofString "k", .int K), (PyStr.ofString "q", .int Q),
    (PyStr.ofString "eta", .int ETA), (PyStr.ofString "amount_bits", .int AMOUNT_BITS)]

structure Commitment where
  txnId : Json
  commitmentB64 : PyStr
  sizeKb : PyFloat
  bindingHash : PyStr
  pubkeyFingerprint : PyStr
  lweParams : Json
  timestampNs : Int
  piiBytes : Int

/-- The dictionary `commit` returns. -/
def Commitment.toDict (commitment : Commitment) : Dict :=
  [(PyStr.ofString "txn_id", commitment.txnId),
    (PyStr.ofString "commitment_b64", .str commitment.commitmentB64),
    (PyStr.ofString "size_kb", .float commitment.sizeKb),
    (PyStr.ofString "binding_hash", .str commitment.bindingHash),
    (PyStr.ofString "pubkey_fingerprint", .str commitment.pubkeyFingerprint),
    (PyStr.ofString "lwe_params", commitment.lweParams),
    (PyStr.ofString "timestamp_ns", .int commitment.timestampNs),
    (PyStr.ofString "pii_bytes", .int commitment.piiBytes)]

/-- Produce a commitment.  `nowNs` is the reading of the clock. -/
def commit (keypair : LWEKeyPair) (amountCents : Int) (txnId : Json) (masterKey : Bytes)
    (nowNs : Int) : Except PyError Commitment := do
  let rSeed ← deriveRandomness P masterKey txnId
  let blob ← commitCore P keypair.A keypair.t amountCents rSeed
  let fingerprint ← keypair.fingerprint P
  return { txnId
           commitmentB64 := Base64.encode blob
           sizeKb := (PyFloat.finite (blob.length / 1024)).round 2
           bindingHash := P.sha3Hex blob
           pubkeyFingerprint := fingerprint
           lweParams
           timestampNs := nowNs
           piiBytes := 0 }

/-- `bytes.fromhex(text)`. -/
def bytesFromHex (text : PyStr) : Except PyError Bytes :=
  match fromHex text with
  | some bytes => .ok bytes
  | none => .error ⟨.valueError, "non-hexadecimal number found in fromhex() arg"⟩

/-- Check a disclosed opening against a published commitment.  Only
`ValueError` and `TypeError` are turned into a refusal. -/
def openCommitment (publicKey : LWEPublicKey) (commitmentB64 : Json) (amountCents : Int)
    (blindingSeedHex : PyStr) : Except PyError Bool :=
  let attempt : Except PyError (Bytes × Bytes) := do
    let expected ← commitmentB64.b64decode
    let rSeed ← bytesFromHex blindingSeedHex
    let recomputed ← commitCore P publicKey.A publicKey.t amountCents rSeed
    return (expected, recomputed)
  match attempt with
  | .ok (expected, recomputed) => .ok (decide (expected = recomputed))
  | .error error => if error.isValueError || error.isTypeError then .ok false else .error error

/-! ## The prover's own verification trace -/

structure TraceStep where
  step : String
  detail : PyStr
  status : String

structure Verification where
  verified : Bool
  txnId : Json
  trace : List TraceStep

/-- `hmac.compare_digest` on a value and an ASCII text. -/
def compareDigest (stored : Json) (fresh : PyStr) : Except PyError Bool :=
  match stored with
  | .str own =>
      match Base64.asciiChars own with
      | some _ => .ok (decide (own = fresh))
      | none => .error ⟨.typeError, "comparing strings with non-ASCII characters is not supported"⟩
  | _ => .error ⟨.typeError, "unsupported operand types(s) or combination of types"⟩

/-- `value[:16]` as it is formatted. -/
def head16 (value : Json) : Except PyError PyStr :=
  match value with
  | .str own => .ok (own.take 16)
  | .arr items => .ok (P.str (.arr (items.take 16)))
  | value => .error ⟨.typeError, "'" ++ value.typeName ++ "' object is not subscriptable"⟩

def verify (keypair : LWEKeyPair) (commitmentRecord : Dict) (amountCents : Int) (txnId : Json)
    (masterKey : Bytes) (nowNs : Int) : Except PyError Verification :=
  let blinding : TraceStep :=
    { step := "DERIVE_BLINDING"
      detail := PyStr.ofString "r = HMAC-SHA256(K_master, " ++ P.str txnId ++ PyStr.ofString ")"
      status := "DONE" }
  match commit P keypair amountCents txnId masterKey nowNs with
  | .error error =>
      if error.isValueError then
        .ok { verified := false
              txnId
              trace := [blinding,
                { step := "ENCODE_AMOUNT", detail := PyStr.ofString error.message,
                  status := "FAILED" }] }
      else .error error
  | .ok recomputed => do
      let stored := Dict.get commitmentRecord "binding_hash" (Json.text "")
      let fresh := recomputed.bindingHash
      let matched ← if stored.truthy then compareDigest stored fresh else .ok false
      let storedHead ← head16 P stored
      return { verified := matched
               txnId
               trace := [blinding,
                 { step := "EXPAND_MATRIX_A"
                   detail := PyStr.ofString "A in R_q^(2x2), deg 256, q=3329"
                   status := "DONE" },
                 { step := "RECOMPUTE_COMMITMENT"
                   detail := PyStr.ofString
                     "u = A^T.r + e1 ; v = <t,r> + e2 + encode(m)  [64-bit domain]"
                   status := "DONE" },
                 { step := "CONSTANT_TIME_COMPARE"
                   detail := PyStr.ofString "stored=" ++ storedHead ++
                     PyStr.ofString "... recomputed=" ++ fresh.take 16 ++ PyStr.ofString "..."
                   status := "DONE" },
                 { step := "RESULT"
                   detail := PyStr.ofString
                     (if matched then "LWE PROOF INTACT - BINDING VERIFIED"
                      else "PROOF MISMATCH - INTEGRITY VIOLATION")
                   status := if matched then "VERIFIED" else "FAILED" }] }

end Lwe
end ZeroAudit
