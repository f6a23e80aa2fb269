import ZeroAudit.Lattice.Disclosure
import ZeroAudit.Verifier.Dashboard

namespace ZeroAudit
namespace Api

open Foundation Kafka Lwe

/-!
# What the opening endpoint certifies

A request may bring its own commitment and its own key.  Without them, a valid
opening is one of the record that was published, under the key that was
fetched.  With them, the comparison is between values the caller chose, and
every amount of the domain can be made valid.
-/

variable (P : Platform)

/-- The commitment decodes to the recomputation for this amount and seed. -/
def Opens (pubkey : LWEPublicKey) (commitment : Json) (amountCents : Int) (blindingSeedHex : PyStr) :
    Prop :=
  ∃ rSeed blob, bytesFromHex blindingSeedHex = .ok rSeed ∧
    commitCore P pubkey.A pubkey.t amountCents rSeed = .ok blob ∧ commitment.b64decode = .ok blob

theorem openCommitment_eq_true_iff (pubkey : LWEPublicKey) (commitment : Json) (amountCents : Int)
    (blindingSeedHex : PyStr) :
    openCommitment P pubkey commitment amountCents blindingSeedHex = .ok true ↔
      Opens P pubkey commitment amountCents blindingSeedHex := by
  unfold openCommitment Opens
  cases commitment.b64decode with
  | error error => simp only [bind, Except.bind]; split <;> simp
  | ok expected =>
      cases bytesFromHex blindingSeedHex with
      | error error => simp only [bind, Except.bind]; split <;> simp
      | ok rSeed =>
          cases run : commitCore P pubkey.A pubkey.t amountCents rSeed with
          | error error => simp only [bind, Except.bind, run]; split <;> simp [run]
          | ok blob => simp [bind, Except.bind, pure, Except.pure, run, eq_comm]

theorem opens_encode {pubkey : LWEPublicKey} {amountCents : Int} {rSeed blob : Bytes}
    (committed : commitCore P pubkey.A pubkey.t amountCents rSeed = .ok blob) :
    Opens P pubkey (.str (Base64.encode blob)) amountCents (hex rSeed) :=
  ⟨rSeed, blob, by rw [bytesFromHex, fromHex_hex], committed, Json.b64decode_encode blob⟩

/-- Under one key and one seed a commitment opens to one amount. -/
theorem opens_unique {pubkey : LWEPublicKey} {commitment : Json} {amountCents other : Int}
    {blindingSeedHex : PyStr} (opens : Opens P pubkey commitment amountCents blindingSeedHex)
    (opensOther : Opens P pubkey commitment other blindingSeedHex) : amountCents = other := by
  rcases opens with ⟨rSeed, blob, seeded, committed, decoded⟩
  rcases opensOther with ⟨_, _, otherSeeded, otherCommitted, otherDecoded⟩
  cases seeded.symm.trans otherSeeded
  cases decoded.symm.trans otherDecoded
  exact commitCore_injective P _ _ _ committed otherCommitted

/-- A text that decodes to something is not empty. -/
theorem truthy_of_b64decode {value : Json} {bytes : Bytes} (decoded : value.b64decode = .ok bytes)
    (nonempty : bytes ≠ []) : value.truthy = true := by
  cases value with
  | str own =>
      cases own with
      | nil =>
          cases decoded
          exact absurd rfl nonempty
      | cons c rest => rfl
  | _ => cases decoded

theorem truthy_of_opens {pubkey : LWEPublicKey} {commitment : Json} {amountCents : Int}
    {blindingSeedHex : PyStr} (opens : Opens P pubkey commitment amountCents blindingSeedHex) :
    commitment.truthy = true := by
  rcases opens with ⟨rSeed, blob, -, committed, decoded⟩
  apply truthy_of_b64decode decoded
  rintro rfl
  cases length_of_commitCore P _ _ _ committed

theorem truthy_of_fromB64 {keyText : Json} {pubkey : LWEPublicKey}
    (parsed : LWEPublicKey.fromB64 P keyText = .ok pubkey) : keyText.truthy = true := by
  rcases bind_eq_ok_iff.mp parsed with ⟨blob, decoded, accepted⟩
  apply truthy_of_b64decode decoded
  rintro rfl
  cases accepted

namespace Dashboard

/-! ## When a request is certified -/

variable (board : Dashboard)

/-- What the request is compared with. -/
def effectiveCommitment (req : OpeningRequest) : Json :=
  override req.commitmentB64 (Dict.get ((board.find req.txnId).getD []) "commitment_b64" .null)

def effectiveKey (req : OpeningRequest) : Json :=
  override req.lwePublicKeyB64 (Dict.get board.proverKeys "lwe_public_key_b64" .null)

/-- The endpoint answers that the opening is valid. -/
def Certifies (req : OpeningRequest) : Prop :=
  ∃ verdict, board.verifyOpening P req = .ok verdict ∧ verdict.openingValid = true

theorem certifies_iff (req : OpeningRequest) :
    board.Certifies P req ↔ ∃ pubkey, LWEPublicKey.fromB64 P (board.effectiveKey req) = .ok pubkey ∧
      Opens P pubkey (board.effectiveCommitment req) req.amountCents req.blindingSeedHex := by
  unfold Certifies
  constructor
  · rintro ⟨verdict, answered, valid⟩
    unfold verifyOpening at answered
    dsimp only at answered
    rw [← effectiveCommitment, ← effectiveKey] at answered
    split at answered
    · cases answered
    split at answered
    · cases answered
    split at answered
    · split at answered
      · cases answered
      · cases answered
    rename_i pubkey parsed
    split at answered
    · cases answered
    rename_i ok opened
    cases answered
    refine ⟨pubkey, parsed, (openCommitment_eq_true_iff ..).mp ?_⟩
    rw [opened]
    exact congrArg Except.ok valid
  · rintro ⟨pubkey, parsed, opens⟩
    refine ⟨board.openingVerdict P req.txnId true, ?_, rfl⟩
    have commitment := truthy_of_opens P opens
    have key := truthy_of_fromB64 P parsed
    unfold verifyOpening
    dsimp only
    rw [← effectiveCommitment, ← effectiveKey, commitment, key, parsed]
    dsimp only
    rw [(openCommitment_eq_true_iff ..).mpr opens]
    rfl

/-! ## The claim of the endpoint -/

/-- The published commitment of the record opens to this amount under the
fetched key. -/
def Genuine (record : Dict) (amountCents : Int) (blindingSeedHex : PyStr) : Prop :=
  ∃ pubkey, LWEPublicKey.fromB64 P (Dict.get board.proverKeys "lwe_public_key_b64" .null) = .ok pubkey ∧
    Opens P pubkey (Dict.get record "commitment_b64" .null) amountCents blindingSeedHex

/-- The amount is in the domain, and the seed is hexadecimal. -/
def Encodable (amountCents : Int) (blindingSeedHex : PyStr) : Prop :=
  (0 ≤ amountCents ∧ amountCents < 2 ^ AMOUNT_BITS) ∧ (fromHex blindingSeedHex).isSome = true

/-- An optional field that is missing or empty. -/
def Absent (own : Option PyStr) : Prop := own.getD [] = []

theorem override_absent {own : Option PyStr} (absent : Absent own) (value : Json) :
    override own value = value := by
  cases own with
  | none => rfl
  | some text =>
      have empty : text = [] := absent
      subst text
      rfl

theorem override_present {text : PyStr} (present : text ≠ []) (value : Json) :
    override (some text) value = .str text := by
  simp [override, Json.orElse, present]

theorem encodable_of_opens {pubkey : LWEPublicKey} {commitment : Json} {amountCents : Int}
    {blindingSeedHex : PyStr} (opens : Opens P pubkey commitment amountCents blindingSeedHex) :
    Encodable amountCents blindingSeedHex := by
  rcases opens with ⟨rSeed, blob, seeded, committed, -⟩
  refine ⟨range_of_commitCore P _ _ _ committed, ?_⟩
  unfold bytesFromHex at seeded
  cases decoded : fromHex blindingSeedHex with
  | none =>
      rw [decoded] at seeded
      cases seeded
  | some bytes => rfl

/-- A keypair of one's own, and a commitment made under it. -/
theorem exists_own_opening {amountCents : Int} {blindingSeedHex : PyStr}
    (encodable : Encodable amountCents blindingSeedHex) :
    ∃ commitmentB64 keyB64 pubkey, commitmentB64 ≠ [] ∧ keyB64 ≠ [] ∧
      LWEPublicKey.fromB64 P (.str keyB64) = .ok pubkey ∧
      Opens P pubkey (.str commitmentB64) amountCents blindingSeedHex := by
  rcases encodable with ⟨⟨low, high⟩, seeded⟩
  rcases Option.isSome_iff_exists.mp seeded with ⟨rSeed, decoded⟩
  have own : (List.replicate SEED_LEN (0 : UInt8)).length = SEED_LEN := List.length_replicate
  rcases LWEKeyPair.parse_publicKeyBytes P _ own with ⟨bytes, -, -, -, -, parsed⟩
  rcases (⟨_, parsed⟩ : ∃ pubkey, LWEPublicKey.parse P bytes = .ok pubkey) with ⟨pubkey, parses⟩
  have key : LWEPublicKey.fromB64 P (.str (Base64.encode bytes)) = .ok pubkey := by
    rw [LWEPublicKey.fromB64, Json.b64decode_encode]
    exact parses
  rcases commitCore_of_range P pubkey.A pubkey.t rSeed low high with ⟨blob, committed, -, -⟩
  have opens : Opens P pubkey (.str (Base64.encode blob)) amountCents blindingSeedHex :=
    ⟨rSeed, blob, by rw [bytesFromHex, decoded], committed, Json.b64decode_encode blob⟩
  refine ⟨Base64.encode blob, Base64.encode bytes, pubkey, ?_, ?_, key, opens⟩
  · simpa using truthy_of_opens P opens
  · simpa using truthy_of_fromB64 P key

section Request

variable {board} {record : Dict} {txnId : PyStr} (found : board.find txnId = some record)
include found

/-- Without overrides the endpoint certifies what was published. -/
theorem certifies_absent_iff {amountCents : Int} {blindingSeedHex : PyStr}
    {commitmentB64 lwePublicKeyB64 : Option PyStr} (noCommitment : Absent commitmentB64)
    (noKey : Absent lwePublicKeyB64) :
    board.Certifies P ⟨txnId, amountCents, blindingSeedHex, commitmentB64, lwePublicKeyB64⟩ ↔
      board.Genuine P record amountCents blindingSeedHex := by
  rw [certifies_iff]
  unfold effectiveKey effectiveCommitment Genuine
  rw [override_absent noCommitment, override_absent noKey]
  simp only [found, Option.getD_some]

/-- A request that leaves the optional fields empty is certified only for the
published commitment under the fetched key.  With the fields free to choose,
this holds of a disclosure exactly if nothing opens to it, or it is genuine. -/
theorem opening_certified_iff (amountCents : Int) (blindingSeedHex : PyStr) :
    (∀ commitmentB64 lwePublicKeyB64, Absent commitmentB64 -> Absent lwePublicKeyB64 ->
        board.Certifies P ⟨txnId, amountCents, blindingSeedHex, commitmentB64, lwePublicKeyB64⟩ ->
          board.Genuine P record amountCents blindingSeedHex) ∧
      ((∀ commitmentB64 lwePublicKeyB64,
          board.Certifies P ⟨txnId, amountCents, blindingSeedHex, commitmentB64, lwePublicKeyB64⟩ ->
            board.Genuine P record amountCents blindingSeedHex) ↔
        ¬Encodable amountCents blindingSeedHex ∨ board.Genuine P record amountCents blindingSeedHex) := by
  constructor
  · intro commitmentB64 lwePublicKeyB64 noCommitment noKey
    exact (certifies_absent_iff P found noCommitment noKey).mp
  · constructor
    · intro always
      by_cases encodable : Encodable amountCents blindingSeedHex
      · right
        rcases exists_own_opening P encodable with
          ⟨commitmentB64, keyB64, pubkey, commitment, key, parsed, opens⟩
        apply always (some commitmentB64) (some keyB64)
        rw [certifies_iff]
        unfold effectiveKey effectiveCommitment
        rw [override_present commitment, override_present key]
        exact ⟨pubkey, parsed, opens⟩
      · exact Or.inl encodable
    · rintro (not | genuine) commitmentB64 lwePublicKeyB64 certified
      · rcases (certifies_iff P board _).mp certified with ⟨pubkey, -, opens⟩
        exact absurd (encodable_of_opens P opens) not
      · exact genuine

end Request

/-! ## A misstated amount -/

def sampleKeyText : PyStr :=
  (LWEKeyPair.generate samplePlatform Sample.latticeSeed).publicKeyB64.toOption.getD []

/-- The published blob for an amount. -/
def sampleBlob (amountCents : Int) : Bytes :=
  (sealedBlob samplePlatform Sample.latticeSeed [] Sample.txnId amountCents).toOption.getD []

def sampleRecord : Dict :=
  [(PyStr.ofString "txn_id", .str Sample.txnId),
    (PyStr.ofString "commitment_b64", .str (Base64.encode (sampleBlob 150000)))]

/-- A service that has fetched the key and holds one record. -/
def sampleBoard : Dashboard :=
  { started with
    consumer := some { VerifierKafkaConsumer.new BUFFER_SIZE with
      committedBuffer := RingBuffer.empty.push sampleRecord }
    proverKeys := [(PyStr.ofString "lwe_public_key_b64", .str sampleKeyText)] }

/-- A request that brings a commitment of its own. -/
def sampleRequest (amountCents : Int) : OpeningRequest :=
  { txnId := Sample.txnId
    amountCents
    blindingSeedHex := hex Sample.blinding
    commitmentB64 := some (Base64.encode (sampleBlob amountCents))
    lwePublicKeyB64 := none }

theorem find_sampleBoard : sampleBoard.find Sample.txnId = some sampleRecord := by
  have buffered : sampleBoard.committed 500 = [sampleRecord] := rfl
  rw [find, buffered]
  simp [sampleRecord, Dict.get]

/-- What an auditor reads off that key text. -/
def samplePubkey : LWEPublicKey :=
  { seed := Sample.latticeSeed
    t := (LWEKeyPair.generate samplePlatform Sample.latticeSeed).t
    A := (LWEKeyPair.generate samplePlatform Sample.latticeSeed).A }

theorem fromB64_sampleKeyText :
    LWEPublicKey.fromB64 samplePlatform (.str sampleKeyText) = .ok samplePubkey := by
  rcases LWEKeyPair.parse_publicKeyBytes samplePlatform Sample.latticeSeed rfl with
    ⟨bytes, serialised, -, -, -, parsed⟩
  have text : sampleKeyText = Base64.encode bytes := by
    rw [sampleKeyText, LWEKeyPair.publicKeyB64, serialised]
    rfl
  rw [text, LWEPublicKey.fromB64, Json.b64decode_encode]
  exact parsed

theorem opens_sampleBlob {amountCents : Int} (low : 0 ≤ amountCents)
    (high : amountCents < 2 ^ AMOUNT_BITS) :
    Opens samplePlatform samplePubkey (.str (Base64.encode (sampleBlob amountCents))) amountCents
      (hex Sample.blinding) := by
  rcases commitCore_of_range samplePlatform samplePubkey.A samplePubkey.t Sample.blinding low high with
    ⟨blob, committed, -, -⟩
  have derived : deriveRandomness samplePlatform [] (.str Sample.txnId) = .ok Sample.blinding := rfl
  have same : sampleBlob amountCents = blob := by
    rw [sampleBlob, sealedBlob, derived]
    change (commitCore samplePlatform samplePubkey.A samplePubkey.t amountCents
      Sample.blinding).toOption.getD [] = blob
    rw [committed]
    rfl
  rw [same]
  exact opens_encode samplePlatform committed

/-- The equivalence for an amount that was not published. -/
theorem opening_certified_iff_sample :
    (∀ commitmentB64 lwePublicKeyB64, Absent commitmentB64 -> Absent lwePublicKeyB64 ->
        sampleBoard.Certifies samplePlatform
          ⟨Sample.txnId, 999, hex Sample.blinding, commitmentB64, lwePublicKeyB64⟩ ->
          sampleBoard.Genuine samplePlatform sampleRecord 999 (hex Sample.blinding)) ∧
      ((∀ commitmentB64 lwePublicKeyB64,
          sampleBoard.Certifies samplePlatform
            ⟨Sample.txnId, 999, hex Sample.blinding, commitmentB64, lwePublicKeyB64⟩ ->
            sampleBoard.Genuine samplePlatform sampleRecord 999 (hex Sample.blinding)) ↔
        ¬Encodable 999 (hex Sample.blinding) ∨
          sampleBoard.Genuine samplePlatform sampleRecord 999 (hex Sample.blinding)) :=
  opening_certified_iff samplePlatform find_sampleBoard 999 (hex Sample.blinding)

/-- The published commitment is to 150000.  A request for 999 that brings its
own commitment is certified, under the fetched key. -/
theorem misstated_amount_certified :
    sampleBoard.find Sample.txnId = some sampleRecord ∧
      sampleBoard.Genuine samplePlatform sampleRecord 150000 (hex Sample.blinding) ∧
      sampleBoard.Certifies samplePlatform (sampleRequest 999) ∧
      ¬sampleBoard.Genuine samplePlatform sampleRecord 999 (hex Sample.blinding) := by
  have fetched : Dict.get sampleBoard.proverKeys "lwe_public_key_b64" .null = .str sampleKeyText := by
    simp [sampleBoard, Dict.get]
  have published : Dict.get sampleRecord "commitment_b64" .null =
      .str (Base64.encode (sampleBlob 150000)) := by
    simp [sampleRecord, Dict.get]
  have first := opens_sampleBlob (by decide : (0 : Int) ≤ 150000) (by decide)
  have second := opens_sampleBlob (by decide : (0 : Int) ≤ 999) (by decide)
  refine ⟨find_sampleBoard, ?_, ?_, ?_⟩
  · unfold Genuine
    rw [fetched, published]
    exact ⟨_, fromB64_sampleKeyText, first⟩
  · have present : Base64.encode (sampleBlob 999) ≠ [] := by
      simpa using truthy_of_opens samplePlatform second
    rw [certifies_iff]
    unfold effectiveKey effectiveCommitment sampleRequest
    rw [override_present present, override_absent (rfl : Absent none), fetched]
    exact ⟨_, fromB64_sampleKeyText, second⟩
  · unfold Genuine
    rw [fetched, published]
    rintro ⟨pubkey, parsed, opens⟩
    cases fromB64_sampleKeyText.symm.trans parsed
    exact absurd (opens_unique samplePlatform first opens) (by decide)

end Dashboard
end Api
end ZeroAudit
