import ZeroAudit.Lattice.CommitmentKernel
import ZeroAudit.SamplePlatform

namespace ZeroAudit
namespace Lwe

open Foundation

/-!
# Selective disclosure

A published commitment opens to its own amount and to no other, and the two
parties agree about it: the auditor compares blobs under the parsed public
key, the prover compares digests under its own keypair.  The only inputs a
commitment is not defined on are transaction ids without a UTF-8 encoding,
which are strings that hold a lone surrogate.
-/

variable (P : Platform)

/-! ## `commit`, `verify` and `openCommitment`, one specification each -/

theorem fingerprint_spec (seed : Bytes) (seedLength : seed.length = SEED_LEN) :
    ∃ text, (LWEKeyPair.generate P seed).fingerprint P = .ok text := by
  rcases LWEKeyPair.parse_publicKeyBytes P seed seedLength with ⟨bytes, serialised, -⟩
  exact ⟨(P.sha3Hex bytes).take 16, by rw [LWEKeyPair.fingerprint, serialised]; rfl⟩

theorem commit_of_ok {keypair : LWEKeyPair} {amountCents : Int} {txnId : Json} {masterKey : Bytes}
    {rSeed blob : Bytes} {fingerprint : PyStr}
    (derived : deriveRandomness P masterKey txnId = .ok rSeed)
    (committed : commitCore P keypair.A keypair.t amountCents rSeed = .ok blob)
    (identified : keypair.fingerprint P = .ok fingerprint) (nowNs : Int) :
    commit P keypair amountCents txnId masterKey nowNs = .ok
      { txnId
        commitmentB64 := Base64.encode blob
        sizeKb := (PyFloat.finite (blob.length / 1024)).round 2
        bindingHash := P.sha3Hex blob
        pubkeyFingerprint := fingerprint
        lweParams
        timestampNs := nowNs
        piiBytes := 0 } := by
  rw [commit, derived]
  change (commitCore P keypair.A keypair.t amountCents rSeed >>= _) = _
  rw [committed]
  change (keypair.fingerprint P >>= _) = _
  rw [identified]
  rfl

/-- Everything a successful `commit` went through. -/
theorem commit_inversion {keypair : LWEKeyPair} {amountCents : Int} {txnId : Json}
    {masterKey : Bytes} {nowNs : Int} {record : Commitment}
    (committed : commit P keypair amountCents txnId masterKey nowNs = .ok record) :
    ∃ rSeed blob, deriveRandomness P masterKey txnId = .ok rSeed ∧
      commitCore P keypair.A keypair.t amountCents rSeed = .ok blob ∧
      record.txnId = txnId ∧ record.commitmentB64 = Base64.encode blob ∧
      record.bindingHash = P.sha3Hex blob ∧ record.timestampNs = nowNs ∧
      record.lweParams = lweParams ∧ record.piiBytes = 0 := by
  rw [commit] at committed
  cases derived : deriveRandomness P masterKey txnId with
  | error error => rw [derived] at committed; cases committed
  | ok rSeed =>
      rw [derived] at committed
      cases run : commitCore P keypair.A keypair.t amountCents rSeed with
      | error error =>
          change (commitCore P keypair.A keypair.t amountCents rSeed >>= _) = _ at committed
          rw [run] at committed
          cases committed
      | ok blob =>
          change (commitCore P keypair.A keypair.t amountCents rSeed >>= _) = _ at committed
          rw [run] at committed
          cases identified : keypair.fingerprint P with
          | error error =>
              change (keypair.fingerprint P >>= _) = _ at committed
              rw [identified] at committed
              cases committed
          | ok fingerprint =>
              change (keypair.fingerprint P >>= _) = _ at committed
              rw [identified] at committed
              cases committed
              exact ⟨rSeed, blob, rfl, run, rfl, rfl, rfl, rfl, rfl, rfl⟩

theorem openCommitment_of_ok (publicKey : LWEPublicKey) {amountCents : Int} {rSeed blob : Bytes}
    (committed : commitCore P publicKey.A publicKey.t amountCents rSeed = .ok blob)
    (published : Bytes) :
    openCommitment P publicKey (.str (Base64.encode published)) amountCents (hex rSeed) =
      .ok (decide (published = blob)) := by
  simp only [openCommitment, Json.b64decode_encode, bytesFromHex, fromHex_hex, committed, bind,
    Except.bind, pure, Except.pure]

/-- A refused amount is an answer, not an exception. -/
theorem openCommitment_of_refused (publicKey : LWEPublicKey) {amountCents : Int} {rSeed : Bytes}
    {error : PyError} (refused : commitCore P publicKey.A publicKey.t amountCents rSeed = .error error)
    (kind : error.isValueError = true) (published : Bytes) :
    openCommitment P publicKey (.str (Base64.encode published)) amountCents (hex rSeed) =
      .ok false := by
  simp only [openCommitment, Json.b64decode_encode, bytesFromHex, fromHex_hex, refused, bind,
    Except.bind, kind, Bool.true_or, if_true]

theorem compareDigest_sha3Hex (message : Bytes) (fresh : PyStr) :
    compareDigest (.str (P.sha3Hex message)) fresh = .ok (decide (P.sha3Hex message = fresh)) := by
  obtain ⟨chars, ascii⟩ := Base64.asciiChars_of_hexDigits
    (fun c (member : c ∈ P.sha3Hex message) => P.isHexDigit_of_mem_sha3Hex member)
  simp only [compareDigest, ascii]

theorem bindingHash_toDict (record : Commitment) (default : Json) :
    Dict.get record.toDict "binding_hash" default = .str record.bindingHash := by
  simp [Commitment.toDict, Dict.get]

/-- The prover's trace compares the stored digest with a fresh one. -/
theorem verify_of_ok {keypair : LWEKeyPair} {amountCents : Int} {txnId : Json} {masterKey : Bytes}
    {nowNs : Int} {stored fresh : Commitment} {published : Bytes}
    (recorded : stored.bindingHash = P.sha3Hex published)
    (recomputed : commit P keypair amountCents txnId masterKey nowNs = .ok fresh) :
    ∃ outcome, verify P keypair stored.toDict amountCents txnId masterKey nowNs = .ok outcome ∧
      outcome.verified = decide (P.sha3Hex published = fresh.bindingHash) := by
  simp only [verify, recomputed, bindingHash_toDict, recorded, Json.truthy_str,
    P.sha3Hex_ne_nil, ne_eq, not_false_eq_true, decide_true, if_true, compareDigest_sha3Hex,
    head16, bind, Except.bind, pure, Except.pure]
  exact ⟨_, rfl, rfl⟩

theorem verify_of_refused {keypair : LWEKeyPair} {amountCents : Int} {txnId : Json}
    {masterKey : Bytes} {nowNs : Int} {error : PyError} (record : Dict)
    (refused : commit P keypair amountCents txnId masterKey nowNs = .error error)
    (kind : error.isValueError = true) :
    ∃ outcome, verify P keypair record amountCents txnId masterKey nowNs = .ok outcome ∧
      outcome.verified = false := by
  simp only [verify, refused, kind, if_true]
  exact ⟨_, rfl, rfl⟩

/-- The auditor's answer: the committed amount, and no other integer. -/
theorem openCommitment_exact (publicKey : LWEPublicKey) {amount : Int} {rSeed blob : Bytes}
    (committed : commitCore P publicKey.A publicKey.t amount rSeed = .ok blob) (claimed : Int) :
    openCommitment P publicKey (.str (Base64.encode blob)) claimed (hex rSeed) =
      .ok (decide (claimed = amount)) := by
  by_cases inside : 0 ≤ claimed ∧ claimed < 2 ^ AMOUNT_BITS
  · rcases commitCore_of_range P publicKey.A publicKey.t rSeed inside.1 inside.2 with
        ⟨other, otherCommitted, -⟩
    rw [openCommitment_of_ok P publicKey otherCommitted]
    refine congrArg Except.ok (decide_eq_decide.mpr ⟨?_, ?_⟩)
    · rintro rfl
      exact commitCore_injective P _ _ _ otherCommitted committed
    · rintro rfl
      exact Except.ok.inj (committed.symm.trans otherCommitted)
  · rcases commitCore_out_of_range P publicKey.A publicKey.t rSeed inside with
        ⟨error, refused, kind⟩
    rw [openCommitment_of_refused P publicKey refused kind, decide_eq_false]
    rintro rfl
    exact inside (range_of_commitCore P _ _ _ committed)

/-- The prover's answer.  The digest needs to tell apart only the two blobs
that are compared. -/
theorem verify_exact {keypair : LWEKeyPair} {txnId : Json} {masterKey rSeed blob : Bytes}
    {fingerprint : PyStr} {amount : Int} {record : Commitment}
    (derived : deriveRandomness P masterKey txnId = .ok rSeed)
    (identified : keypair.fingerprint P = .ok fingerprint)
    (committed : commitCore P keypair.A keypair.t amount rSeed = .ok blob)
    (recorded : record.bindingHash = P.sha3Hex blob) {claimed : Int}
    (collisionFree : ∀ other, commitCore P keypair.A keypair.t claimed rSeed = .ok other →
      P.sha3 blob = P.sha3 other → blob = other) (nowNs : Int) :
    ∃ outcome, verify P keypair record.toDict claimed txnId masterKey nowNs = .ok outcome ∧
      outcome.verified = decide (claimed = amount) := by
  by_cases inside : 0 ≤ claimed ∧ claimed < 2 ^ AMOUNT_BITS
  · rcases commitCore_of_range P keypair.A keypair.t rSeed inside.1 inside.2 with
        ⟨other, otherCommitted, -⟩
    rcases verify_of_ok P recorded (commit_of_ok P derived otherCommitted identified nowNs) with
        ⟨outcome, verified, same⟩
    refine ⟨outcome, verified, same.trans (decide_eq_decide.mpr ⟨fun equal => ?_, ?_⟩)⟩
    · have blobs := collisionFree other otherCommitted (hex_injective equal)
      subst other
      exact commitCore_injective P _ _ _ otherCommitted committed
    · rintro rfl
      exact congrArg P.sha3Hex (Except.ok.inj (committed.symm.trans otherCommitted))
  · rcases commitCore_out_of_range P keypair.A keypair.t rSeed inside with ⟨error, refused, kind⟩
    have raised : commit P keypair claimed txnId masterKey nowNs = .error error := by
      rw [commit, derived]
      change (commitCore P keypair.A keypair.t claimed rSeed >>= _) = _
      rw [refused]
      rfl
    rcases verify_of_refused P record.toDict raised kind with ⟨outcome, verified, rejected⟩
    refine ⟨outcome, verified, rejected.trans (decide_eq_false ?_).symm⟩
    rintro rfl
    exact inside (range_of_commitCore P _ _ _ committed)

/-! ## Exact disclosure -/

/-- The blob a keypair of this seed publishes for an amount. -/
def sealedBlob (seed masterKey : Bytes) (txnId : PyStr) (amountCents : Int) :
    Except PyError Bytes := do
  let keypair := LWEKeyPair.generate P seed
  let rSeed ← deriveRandomness P masterKey (.str txnId)
  commitCore P keypair.A keypair.t amountCents rSeed

/-- The blob of an id that has an encoding, which enters by the blinding seed alone. -/
theorem sealedBlob_of_encoded {txnId : PyStr} {message : Bytes} (encoded : PyStr.utf8 txnId = some message)
    (seed masterKey : Bytes) (amountCents : Int) :
    sealedBlob P seed masterKey txnId amountCents =
      commitCore P (LWEKeyPair.generate P seed).A (LWEKeyPair.generate P seed).t amountCents
        (P.hmacSha256 masterKey message) := by
  rw [sealedBlob, deriveRandomness, Json.encode_str encoded]
  rfl

/-- What an audit of one transaction relies on: the published key parses, the
commitment has the advertised shape, and both comparisons accept exactly the
committed amount.  `now` and `later` are the clock at commitment and at
verification. -/
def DisclosureExact (seed masterKey : Bytes) (txnId : PyStr) (amount claimed now later : Int) :
    Prop :=
  ∃ keyText publicKey rSeed record blob words,
    (LWEKeyPair.generate P seed).publicKeyB64 = .ok keyText ∧
    LWEPublicKey.fromB64 P (.str keyText) = .ok publicKey ∧
    deriveRandomness P masterKey (.str txnId) = .ok rSeed ∧
    commit P (LWEKeyPair.generate P seed) amount (.str txnId) masterKey now = .ok record ∧
    record.commitmentB64 = Base64.encode blob ∧
    blob.length = (K + 1) * N * 2 ∧
    unpackWords blob = some words ∧ (∀ w ∈ words, 0 ≤ w ∧ w < (Q : Int)) ∧
    openCommitment P publicKey (.str record.commitmentB64) claimed (hex rSeed) =
      .ok (decide (claimed = amount)) ∧
    ∃ outcome,
      verify P (LWEKeyPair.generate P seed) record.toDict claimed (.str txnId) masterKey later =
        .ok outcome ∧
      outcome.verified = decide (claimed = amount)

/-- Disclosure is exact for every transaction id that has an encoding. -/
theorem disclosure_exact {seed : Bytes} (seedLength : seed.length = SEED_LEN) (masterKey : Bytes)
    {txnId : PyStr} (encodable : (PyStr.utf8 txnId).isSome) {amount : Int}
    (domain : 0 ≤ amount ∧ amount < 2 ^ AMOUNT_BITS) (claimed now later : Int)
    (collisionFree : ∀ blob other, sealedBlob P seed masterKey txnId amount = .ok blob →
      sealedBlob P seed masterKey txnId claimed = .ok other →
      P.sha3 blob = P.sha3 other → blob = other) :
    DisclosureExact P seed masterKey txnId amount claimed now later := by
  rcases Option.isSome_iff_exists.mp encodable with ⟨message, encoded⟩
  have derived : deriveRandomness P masterKey (.str txnId) =
      .ok (P.hmacSha256 masterKey message) := by
    rw [deriveRandomness, Json.encode_str encoded]
    rfl
  have sealedEq := sealedBlob_of_encoded P encoded seed masterKey
  rcases LWEKeyPair.parse_publicKeyBytes P seed seedLength with ⟨bytes, serialised, -, -, -, parsed⟩
  rcases fingerprint_spec P seed seedLength with ⟨fingerprint, identified⟩
  obtain ⟨blob, committed, blobLength, words⟩ := commitCore_of_range P
    (LWEKeyPair.generate P seed).A (LWEKeyPair.generate P seed).t
    (P.hmacSha256 masterKey message) domain.1 domain.2
  have opened := openCommitment_exact P ⟨seed, (LWEKeyPair.generate P seed).t,
    (LWEKeyPair.generate P seed).A⟩ committed claimed
  refine ⟨Base64.encode bytes, _, P.hmacSha256 masterKey message, _, blob, _,
    ?_, ?_, derived, commit_of_ok P derived committed identified now, rfl, blobLength, words,
    (commitmentWords_spec P _ _ _ _).2, opened,
    verify_exact P derived identified committed rfl ?_ later⟩
  · rw [LWEKeyPair.publicKeyB64, serialised]
    rfl
  · rw [LWEPublicKey.fromB64, Json.b64decode_encode]
    exact parsed
  · intro other otherCommitted
    exact collisionFree blob other ((sealedEq amount).trans committed)
      ((sealedEq claimed).trans otherCommitted)

/-! ## A closed instance, and the ids a commitment is not defined on -/

theorem cbd_sample_blinding (nonce : Nat) :
    cbd samplePlatform Sample.blinding nonce N = zeroPoly := by
  have quiet : samplePlatform.shake256 (Sample.blinding ++ packNonce nonce) ((N + 1) / 2) =
      List.replicate ((N + 1) / 2) 0 := rfl
  have entries : ∀ index, (List.replicate ((N + 1) / 2) (0 : UInt8)).getD index 0 = 0 := by
    intro index
    rw [List.getD_eq_getElem?_getD, List.getElem?_replicate]
    split <;> rfl
  refine List.eq_replicate_iff.mpr ⟨by simp [cbd], fun c member => ?_⟩
  rcases List.mem_map.mp member with ⟨index, -, rfl⟩
  simp only [quiet, entries]
  split <;> rfl

/-- Under the sample platform a sealed blob is the packed encoding. -/
theorem sealedBlob_sample {amount : Int} (domain : 0 ≤ amount ∧ amount < 2 ^ AMOUNT_BITS) :
    sealedBlob samplePlatform Sample.latticeSeed [] Sample.txnId amount =
      pack (((List.range K).map fun _ => zeroPoly).flatten ++
        encodeBits amount.toNat AMOUNT_BITS) := by
  rw [← commitmentWords_silent cbd_sample_blinding
    (fun i inside => isWordVector_transpose_genMatrixA samplePlatform Sample.latticeSeed inside)
    (fun i inside => (LWEKeyPair.isReduced_t samplePlatform Sample.latticeSeed inside).isWord)]
  exact commitCore_eq_pack samplePlatform _ _ _ domain.1 domain.2

theorem sample_digests_differ :
    (pack (((List.range K).map fun _ => zeroPoly).flatten ++
      encodeBits 150000 AMOUNT_BITS)).toOption.map Sample.digest ≠
    (pack (((List.range K).map fun _ => zeroPoly).flatten ++
      encodeBits 4295117296 AMOUNT_BITS)).toOption.map Sample.digest := by
  decide +kernel

/-- An amount and its sum with `2^32` are told apart by both comparisons. -/
theorem disclosure_exact_sample :
    DisclosureExact samplePlatform Sample.latticeSeed [] Sample.txnId 150000 4295117296 1 2 := by
  apply disclosure_exact samplePlatform rfl [] rfl (by decide) 4295117296 1 2
  intro blob other committed claimed equal
  rw [sealedBlob_sample (by decide)] at committed claimed
  have different := sample_digests_differ
  rw [show (150000 : Nat) = (150000 : Int).toNat from rfl, committed,
    show (4295117296 : Nat) = (4295117296 : Int).toNat from rfl, claimed] at different
  exact absurd (congrArg some equal) different

/-- A transaction id that is one lone surrogate has no commitment at all. -/
theorem surrogate_id_not_disclosed :
    Sample.latticeSeed.length = SEED_LEN ∧ (0 : Int) < 2 ^ AMOUNT_BITS ∧
      ¬DisclosureExact samplePlatform Sample.latticeSeed [] [.surrogate 0] 0 0 1 2 := by
  refine ⟨rfl, by decide, ?_⟩
  rintro ⟨_, _, _, _, _, _, -, -, derived, -⟩
  cases derived

end Lwe
end ZeroAudit
