import ZeroAudit.Foundation.LinkChain
import ZeroAudit.Lattice.Disclosure
import ZeroAudit.Prover.Commitment

namespace ZeroAudit
namespace Commitment

open Foundation Signature

/-!
# What a run of `add` leaves behind

A run is a list of calls, of which some succeed and some raise.  Every call
that reaches the chain adds one link, also when it raises afterwards: the head
has moved by then.  The trace of a run lists these links.  The records of the
run are the ones the trace carries, in order, and the links of the trace form
a chain from the head the store started with.
-/

variable (P : Platform)

/-! ## The preimage of a link -/

/-- The text one link hashes, before it is encoded. -/
def linkText (prevChainHash bindingHash txnId timestamp : PyStr) : PyStr :=
  prevChainHash ++ (bindingHash ++ (txnId ++ timestamp))

/-- A preimage exists exactly when the three text fields are strings and the
joined text has an encoding, which is then the preimage. -/
theorem linkPreimage_eq_ok_iff (prevChainHash bindingHash txnId timestampNs : Json)
    (bytes : Bytes) :
    linkPreimage P prevChainHash bindingHash txnId timestampNs = .ok bytes ↔
      ∃ prev binding id, prevChainHash = .str prev ∧ bindingHash = .str binding ∧ txnId = .str id ∧
        PyStr.utf8 (linkText prev binding id (P.str timestampNs)) = some bytes := by
  unfold linkPreimage
  simp only [bind_eq_ok_iff, Json.encode_eq_ok_iff, linkText, PyStr.utf8_append_eq_some_iff]
  constructor
  · rintro ⟨a, ⟨prev, rfl, prevBytes⟩, b, ⟨binding, rfl, bindingBytes⟩, c, ⟨id, rfl, idBytes⟩, d,
      ⟨_, same, stampBytes⟩, joined⟩
    cases same
    cases joined
    exact ⟨prev, binding, id, rfl, rfl, rfl, a, _, prevBytes, ⟨b, _, bindingBytes,
      ⟨c, d, idBytes, stampBytes, rfl⟩, rfl⟩, by simp⟩
  · rintro ⟨prev, binding, id, rfl, rfl, rfl, a, _, prevBytes, ⟨b, _, bindingBytes,
      ⟨c, d, idBytes, stampBytes, rfl⟩, rfl⟩, rfl⟩
    exact ⟨a, ⟨prev, rfl, prevBytes⟩, b, ⟨binding, rfl, bindingBytes⟩, c, ⟨id, rfl, idBytes⟩, d,
      ⟨_, rfl, stampBytes⟩, by simp [pure, Except.pure]⟩

/-- A text of 64 hexadecimal digits. -/
structure IsDigest (text : PyStr) : Prop where
  length : text.length = 64
  digits : ∀ c ∈ text, isHexDigit c = true

theorem isDigest_sha3Hex (message : Bytes) : IsDigest (P.sha3Hex message) :=
  ⟨P.length_sha3Hex message, fun _ => P.isHexDigit_of_mem_sha3Hex⟩

theorem isDigest_genesis : IsDigest GENESIS_HASH := by
  constructor
  · exact List.length_replicate
  · intro c member
    rw [List.eq_of_mem_replicate member]
    decide

/-- Two links with one preimage have the same predecessor and the same binding
hash.  What is left is the text of the id followed by the timestamp, in which
the boundary is not marked. -/
theorem linkPreimage_injective {prev prev' binding binding' id id' : PyStr} {stamp stamp' : Json}
    {bytes : Bytes} (prevDigest : IsDigest prev) (prevDigest' : IsDigest prev')
    (bindingDigest : IsDigest binding) (bindingDigest' : IsDigest binding')
    (first : linkPreimage P (.str prev) (.str binding) (.str id) stamp = .ok bytes)
    (second : linkPreimage P (.str prev') (.str binding') (.str id') stamp' = .ok bytes) :
    prev = prev' ∧ binding = binding' ∧ id ++ P.str stamp = id' ++ P.str stamp' := by
  rcases (linkPreimage_eq_ok_iff ..).mp first with ⟨_, _, _, same, same', same'', encoded⟩
  cases same
  cases same'
  cases same''
  rcases (linkPreimage_eq_ok_iff ..).mp second with ⟨_, _, _, same, same', same'', encoded'⟩
  cases same
  cases same'
  cases same''
  have texts := PyStr.utf8_injective encoded encoded'
  have heads := List.append_inj texts (prevDigest.length.trans prevDigest'.length.symm)
  have tails := List.append_inj heads.2 (bindingDigest.length.trans bindingDigest'.length.symm)
  exact ⟨heads.1, tails.1, tails.2⟩

/-- A link between digests hashes 128 bytes, the id and the timestamp. -/
theorem length_linkPreimage {prev binding id : PyStr} {stamp : Json} {bytes message time : Bytes}
    (prevDigest : IsDigest prev) (bindingDigest : IsDigest binding)
    (idBytes : PyStr.utf8 id = some message) (timeBytes : PyStr.utf8 (P.str stamp) = some time)
    (linked : linkPreimage P (.str prev) (.str binding) (.str id) stamp = .ok bytes) :
    bytes.length = 128 + message.length + time.length := by
  rcases utf8_of_hexDigits prevDigest.digits with ⟨first, firstBytes, firstLength⟩
  rcases utf8_of_hexDigits bindingDigest.digits with ⟨second, secondBytes, secondLength⟩
  rw [linkPreimage, Json.encode_str firstBytes, Json.encode_str secondBytes, Json.encode_str idBytes,
    Json.encode_str timeBytes] at linked
  cases linked
  simp only [List.length_append, firstLength, secondLength, prevDigest.length, bindingDigest.length]

/-! ## Records -/

/-- Everything `add` guarantees about a record it returns. -/
structure HonestRecord (key : SigningKey) (record : CommitmentRecord) : Prop where
  txnId : ∃ id, record.txnId = .str id
  commitment : ∃ blob, blob ≠ [] ∧ record.commitmentB64 = Base64.encode blob ∧
    record.bindingHash = P.sha3Hex blob
  link : ∃ preimage,
    linkPreimage P (.str record.prevChainHash) (.str record.bindingHash) record.txnId
      (.int record.timestampNs) = .ok preimage ∧ record.chainHash = P.sha3Hex preimage
  signature : ∃ payload,
    signingPayload P record.txnId (.str record.bindingHash) (.int record.timestampNs)
      (.str record.chainHash) = .ok payload ∧ record.signatureB64 = key.sign P payload
  lweParams : record.lweParams = Lwe.lweParams
  piiBytes : record.piiBytes = 0

theorem HonestRecord.bindingHash_isDigest {key : SigningKey} {record : CommitmentRecord}
    (honest : HonestRecord P key record) : IsDigest record.bindingHash := by
  rcases honest.commitment with ⟨blob, -, -, same⟩
  rw [same]
  exact isDigest_sha3Hex P blob

theorem HonestRecord.chainHash_isDigest {key : SigningKey} {record : CommitmentRecord}
    (honest : HonestRecord P key record) : IsDigest record.chainHash := by
  rcases honest.link with ⟨preimage, -, same⟩
  rw [same]
  exact isDigest_sha3Hex P preimage

/-! ## One call -/

/-- A link of the chain, with the record it carries, if one was built. -/
structure Link where
  prev : PyStr
  digest : PyStr
  preimage : Bytes
  record : Option CommitmentRecord

section Call

variable {L : Type} (calls : LedgerCalls L) (store : CommitmentStore L) (call : AddCall)

/-- What was computed before the lock. -/
theorem sealTransaction_inversion {sealed : Sealed}
    (sealing : CommitmentStore.sealTransaction P store call = .ok sealed) :
    (∃ id, call.txnId = .str id) ∧
      (∃ blob, blob ≠ [] ∧ sealed.lweResult.commitmentB64 = Base64.encode blob ∧
        sealed.lweResult.bindingHash = P.sha3Hex blob) ∧
      sealed.lweResult.timestampNs = call.nowNs ∧ sealed.lweResult.lweParams = Lwe.lweParams := by
  unfold CommitmentStore.sealTransaction at sealing
  simp only [bind_eq_ok_iff] at sealing
  rcases sealing with ⟨_, -, lweResult, committed, _, -, same⟩
  cases same
  rcases Lwe.commit_inversion P committed with
    ⟨rSeed, blob, derived, core, -, encoded, hashed, stamped, params, -⟩
  unfold Lwe.deriveRandomness at derived
  rcases bind_eq_ok_iff.mp derived with ⟨message, encodedId, -⟩
  rcases (Json.encode_eq_ok_iff ..).mp encodedId with ⟨id, same, -⟩
  have length := Lwe.length_of_commitCore P _ _ _ core
  refine ⟨⟨id, same⟩, ⟨blob, ?_, encoded, hashed⟩, stamped, params⟩
  intro empty
  rw [empty] at length
  cases length

/-- What signing and filling in the record produced. -/
theorem buildRecord_inversion {sealed : Sealed} {seq : Int} {chainHash : PyStr}
    {record : CommitmentRecord}
    (built : CommitmentStore.buildRecord P store call sealed seq chainHash = .ok record) :
    record.txnId = call.txnId ∧ record.commitmentB64 = sealed.lweResult.commitmentB64 ∧
      record.bindingHash = sealed.lweResult.bindingHash ∧
      record.timestampNs = sealed.lweResult.timestampNs ∧
      record.lweParams = sealed.lweResult.lweParams ∧ record.seq = seq ∧
      record.prevChainHash = store.head ∧ record.chainHash = chainHash ∧ record.piiBytes = 0 ∧
      ∃ payload, signingPayload P call.txnId (.str sealed.lweResult.bindingHash)
        (.int sealed.lweResult.timestampNs) (.str chainHash) = .ok payload ∧
        record.signatureB64 = store.signingKey.sign P payload := by
  unfold CommitmentStore.buildRecord at built
  simp only [bind_eq_ok_iff] at built
  rcases built with ⟨_, attested, _, -, _, -, _, -, same⟩
  rcases (signCommitment_eq_ok_iff P).mp attested with ⟨-, payload, made, rfl⟩
  cases same
  exact ⟨rfl, rfl, rfl, rfl, rfl, rfl, rfl, rfl, rfl, payload, made, rfl⟩

/-- The link a call adds to the chain, if it gets that far. -/
def linkOf : Option Link :=
  match CommitmentStore.sealTransaction P store call with
  | .error _ => none
  | .ok sealed =>
      match linkPreimage P (.str store.head) (.str sealed.lweResult.bindingHash) call.txnId
          (.int sealed.lweResult.timestampNs) with
      | .error _ => none
      | .ok preimage =>
          some { prev := store.head
                 digest := P.sha3Hex preimage
                 preimage
                 record := (CommitmentStore.buildRecord P store call sealed (store.seq + 1)
                   (P.sha3Hex preimage)).toOption }

/-- The scores are floats, as `add` declares them, and the signing step goes through. -/
structure Regular (call : AddCall) : Prop where
  scores : ∃ anomaly novelty typology, call.anomalyScore = .float anomaly ∧
    call.noveltyScore = .float novelty ∧ call.typologyScore = .float typology
  signs : call.signingError = none

/-- A call that cannot fail: the ids are texts with an encoding, the amount is
in the committed domain, and the call is regular. -/
structure WellFormed (call : AddCall) (id : PyStr) : Prop where
  txnId : call.txnId = .str id
  idBytes : ∃ bytes, PyStr.utf8 id = some bytes
  accountId : ∃ bytes, call.accountId.encode = .ok bytes
  domain : 0 ≤ call.amountCents ∧ call.amountCents < 2 ^ Lwe.AMOUNT_BITS
  regular : Regular call

/-- What could be linked can be signed. -/
theorem signingPayload_of_linkPreimage {prev binding id stamp : Json} {preimage : Bytes}
    (linked : linkPreimage P prev binding id stamp = .ok preimage) (message : Bytes) :
    ∃ payload, signingPayload P id binding stamp (.str (P.sha3Hex message)) = .ok payload := by
  unfold linkPreimage at linked
  simp only [bind_eq_ok_iff] at linked
  rcases linked with ⟨_, -, second, bindingBytes, first, idBytes, third, stampBytes, -⟩
  rcases utf8_of_hexDigits (isDigest_sha3Hex P message).digits with ⟨fourth, chainBytes, -⟩
  unfold signingPayload
  rw [idBytes, bindingBytes, stampBytes, Json.encode_str chainBytes]
  exact ⟨_, rfl⟩

/-- A link is built from a sealed commitment. -/
theorem linkOf_inversion {link : Link} (some : linkOf P store call = some link) :
    ∃ sealed preimage, CommitmentStore.sealTransaction P store call = .ok sealed ∧
      linkPreimage P (.str store.head) (.str sealed.lweResult.bindingHash) call.txnId
        (.int sealed.lweResult.timestampNs) = .ok preimage ∧
      link = {
        prev := store.head
        digest := P.sha3Hex preimage
        preimage
        record := (CommitmentStore.buildRecord P store call sealed (store.seq + 1)
          (P.sha3Hex preimage)).toOption } := by
  unfold linkOf at some
  cases sealing : CommitmentStore.sealTransaction P store call with
  | error error => simp [sealing] at some
  | ok sealed =>
      simp only [sealing] at some
      cases built : linkPreimage P (.str store.head) (.str sealed.lweResult.bindingHash) call.txnId
          (.int sealed.lweResult.timestampNs) with
      | error error => simp [built] at some
      | ok preimage =>
          simp only [built, Option.some.injEq] at some
          exact ⟨sealed, preimage, rfl, built, some.symm⟩

/-- The record can be filled in: the signing step goes through, and the three scores convert to
floats. -/
structure Fillable (call : AddCall) : Prop where
  signs : call.signingError = none
  anomaly : ∃ score, P.float call.anomalyScore = .ok score
  novelty : ∃ score, P.float call.noveltyScore = .ok score
  typology : ∃ score, P.float call.typologyScore = .ok score

instance (call : AddCall) : Decidable (Fillable P call) :=
  decidable_of_iff (call.signingError.isNone = true ∧ (∃ score, P.float call.anomalyScore = .ok score) ∧
      (∃ score, P.float call.noveltyScore = .ok score) ∧ ∃ score, P.float call.typologyScore = .ok score)
    ⟨fun ⟨signs, anomaly, novelty, typology⟩ => ⟨Option.isNone_iff_eq_none.mp signs, anomaly, novelty, typology⟩,
      fun ⟨signs, anomaly, novelty, typology⟩ =>
        ⟨Option.isNone_iff_eq_none.mpr signs, anomaly, novelty, typology⟩⟩

/-- A link carries a record exactly if it can be filled in. -/
theorem isSome_record_iff {link : Link} (some : linkOf P store call = some link) :
    (∃ record, link.record = .some record) ↔ Fillable P call := by
  rcases linkOf_inversion P store call some with ⟨sealed, preimage, -, built, rfl⟩
  constructor
  · rintro ⟨record, carried⟩
    cases recorded : CommitmentStore.buildRecord P store call sealed (store.seq + 1)
        (P.sha3Hex preimage) with
    | error error => simp [recorded, Except.toOption] at carried
    | ok own =>
        unfold CommitmentStore.buildRecord at recorded
        simp only [bind_eq_ok_iff] at recorded
        rcases recorded with ⟨_, attested, anomaly, first, novelty, second, typology, third, -⟩
        exact ⟨((signCommitment_eq_ok_iff P).mp attested).1, ⟨anomaly, first⟩, ⟨novelty, second⟩,
          ⟨typology, third⟩⟩
  · rintro ⟨signs, ⟨anomaly, first⟩, ⟨novelty, second⟩, ⟨typology, third⟩⟩
    rcases signingPayload_of_linkPreimage P built preimage with ⟨payload, made⟩
    have attested : signCommitment P store.signingKey _ _ _ _ _ = .ok _ :=
      (signCommitment_eq_ok_iff P).mpr ⟨signs, payload, made, rfl⟩
    unfold CommitmentStore.buildRecord
    rw [attested, first, second, third]
    exact ⟨_, rfl⟩

/-- The record of a regular call can be filled in. -/
theorem fillable_of_regular {call : AddCall} (regular : Regular call) : Fillable P call := by
  rcases regular.scores with ⟨anomaly, novelty, typology, anomalyEq, noveltyEq, typologyEq⟩
  refine ⟨regular.signs, ⟨anomaly, ?_⟩, ⟨novelty, ?_⟩, ⟨typology, ?_⟩⟩
  · rw [anomalyEq]
    rfl
  · rw [noveltyEq]
    rfl
  · rw [typologyEq]
    rfl

/-- The link of a regular call always carries its record. -/
theorem record_of_regular {link : Link} (some : linkOf P store call = some link)
    (regular : Regular call) :
    ∃ record, link.record = .some record :=
  (isSome_record_iff P store call some).mpr (fillable_of_regular P regular)

/-- A sealable call on a store with a generated keypair adds a link, which hashes the
commitment of its amount. -/
theorem linkOf_of_sealable {id : PyStr} {message account : Bytes} {number : PyFloat}
    (txnId : call.txnId = .str id) (idBytes : PyStr.utf8 id = some message)
    (accountBytes : call.accountId.encode = .ok account)
    (domain : 0 ≤ call.amountCents ∧ call.amountCents < 2 ^ Lwe.AMOUNT_BITS)
    (numeric : call.anomalyScore.asNumber = some number) {seed : Bytes}
    (seedLength : seed.length = Lwe.SEED_LEN) (keypair : store.keypair = Lwe.LWEKeyPair.generate P seed)
    (head : IsDigest store.head) :
    ∃ link blob sealed, linkOf P store call = some link ∧
      Lwe.sealedBlob P seed store.masterKey id call.amountCents = .ok blob ∧
      blob.length = (Lwe.K + 1) * Lwe.N * 2 ∧ sealed.lweResult.commitmentB64 = Base64.encode blob ∧
      linkPreimage P (.str store.head) (.str (P.sha3Hex blob)) (.str id) (.int call.nowNs) =
        .ok link.preimage ∧
      ∃ seq chainHash, link.record =
        (CommitmentStore.buildRecord P store call sealed seq chainHash).toOption := by
  have derived : Lwe.deriveRandomness P store.masterKey (.str id) =
      .ok (P.hmacSha256 store.masterKey message) := by
    rw [Lwe.deriveRandomness, Json.encode_str idBytes]
    rfl
  rcases Lwe.commitCore_of_range P store.keypair.A store.keypair.t
    (P.hmacSha256 store.masterKey message) domain.1 domain.2 with ⟨blob, committed, length, -⟩
  rcases Lwe.fingerprint_spec P seed seedLength with ⟨fingerprint, identified⟩
  rw [← keypair] at identified
  have sealing := Lwe.commit_of_ok P derived committed identified call.nowNs
  rcases utf8_of_hexDigits head.digits with ⟨headBytes, headEncoded, -⟩
  rcases utf8_of_hexDigits (isDigest_sha3Hex P blob).digits with ⟨bindingBytes, bindingEncoded, -⟩
  rcases PyStr.decimal_encodable call.nowNs with ⟨stampBytes, stampEncoded⟩
  have linked : linkPreimage P (.str store.head) (.str (P.sha3Hex blob)) (.str id)
      (.int call.nowNs) = .ok (headBytes ++ bindingBytes ++ message ++ stampBytes) := by
    rw [linkPreimage, Json.encode_str headEncoded, Json.encode_str bindingEncoded,
      Json.encode_str idBytes, P.str_int, Json.encode_str stampEncoded]
    rfl
  have sealed : ∃ sealed, CommitmentStore.sealTransaction P store call = .ok sealed ∧
      sealed.lweResult.commitmentB64 = Base64.encode blob ∧
      sealed.lweResult.bindingHash = P.sha3Hex blob ∧
      sealed.lweResult.timestampNs = call.nowNs := by
    unfold CommitmentStore.sealTransaction Json.ge
    rw [accountBytes, txnId, numeric]
    simp only [bind, Except.bind, sealing]
    exact ⟨_, rfl, rfl, rfl, rfl⟩
  rcases sealed with ⟨sealed, sealedEq, encoded, binding, stamp⟩
  have added : ∃ link, linkOf P store call = some link ∧
      link.preimage = headBytes ++ bindingBytes ++ message ++ stampBytes ∧
      ∃ seq chainHash, link.record =
        (CommitmentStore.buildRecord P store call sealed seq chainHash).toOption := by
    unfold linkOf
    rw [sealedEq]
    simp only [binding, stamp, txnId, linked]
    exact ⟨_, rfl, rfl, _, _, rfl⟩
  rcases added with ⟨link, some, preimage, filled⟩
  refine ⟨link, blob, sealed, some, ?_, length, encoded, preimage ▸ linked, filled⟩
  rw [Lwe.sealedBlob, derived, ← keypair]
  exact committed

/-- A well-formed call on a store with a generated keypair adds a link, which
hashes and carries the commitment of its amount. -/
theorem linkOf_of_wellFormed {id : PyStr} (wellFormed : WellFormed call id) {seed : Bytes}
    (seedLength : seed.length = Lwe.SEED_LEN) (keypair : store.keypair = Lwe.LWEKeyPair.generate P seed)
    (head : IsDigest store.head) :
    ∃ link blob record, linkOf P store call = some link ∧ link.record = some record ∧
      record.commitmentB64 = Base64.encode blob ∧
      Lwe.sealedBlob P seed store.masterKey id call.amountCents = .ok blob ∧
      blob.length = (Lwe.K + 1) * Lwe.N * 2 ∧
      linkPreimage P (.str store.head) (.str (P.sha3Hex blob)) (.str id) (.int call.nowNs) =
        .ok link.preimage := by
  rcases wellFormed.idBytes with ⟨message, idBytes⟩
  rcases wellFormed.accountId with ⟨account, accountBytes⟩
  rcases wellFormed.regular.scores with ⟨anomaly, _, _, anomalyEq, -, -⟩
  have numeric : call.anomalyScore.asNumber = some anomaly := by
    rw [anomalyEq]
    rfl
  rcases linkOf_of_sealable P store call wellFormed.txnId idBytes accountBytes wellFormed.domain numeric
    seedLength keypair head with
    ⟨link, blob, sealed, some, committed, length, encoded, linked, seq, chainHash, filled⟩
  rcases record_of_regular P store call some wellFormed.regular with ⟨record, carried⟩
  refine ⟨link, blob, record, some, carried, ?_, committed, length, linked⟩
  rw [carried] at filled
  cases built : CommitmentStore.buildRecord P store call sealed seq chainHash with
  | error error => simp [built, Except.toOption] at filled
  | ok own =>
      simp only [built, Except.toOption, Option.some.injEq] at filled
      rw [filled, (buildRecord_inversion P store call built).2.1, encoded]

/-- A call that adds no link raises and changes nothing. -/
theorem add_of_linkOf_none (none : linkOf P store call = none) :
    ∃ error, CommitmentStore.add P store calls call = (.error error, store) := by
  unfold linkOf at none
  unfold CommitmentStore.add CommitmentStore.addLocked computeChainHash
  cases sealing : CommitmentStore.sealTransaction P store call with
  | error error => exact ⟨error, rfl⟩
  | ok sealed =>
      simp only [sealing] at none
      cases built : linkPreimage P (.str store.head) (.str sealed.lweResult.bindingHash) call.txnId
          (.int sealed.lweResult.timestampNs) with
      | error error => exact ⟨error, by simp [built, bind, Except.bind]⟩
      | ok preimage => simp [built] at none

/-- A link names the head and hashes its preimage. -/
theorem linkOf_fields {link : Link} (some : linkOf P store call = some link) :
    link.prev = store.head ∧ link.digest = P.sha3Hex link.preimage := by
  rcases linkOf_inversion P store call some with ⟨_, _, -, -, rfl⟩
  exact ⟨rfl, rfl⟩

/-- A call that adds a link moves the head to its digest and returns the
record it carries, if there is one. -/
theorem add_of_linkOf_some {link : Link} (some : linkOf P store call = some link) :
    (CommitmentStore.add P store calls call).2.head = link.digest ∧
      (CommitmentStore.add P store calls call).2.seq = store.seq + 1 ∧
      (CommitmentStore.add P store calls call).2.keypair = store.keypair ∧
      (CommitmentStore.add P store calls call).2.signingKey = store.signingKey ∧
      (CommitmentStore.add P store calls call).1.toOption = link.record := by
  rcases linkOf_inversion P store call some with ⟨sealed, preimage, sealing, built, rfl⟩
  unfold CommitmentStore.add CommitmentStore.addLocked computeChainHash
  simp only [sealing, built, bind, Except.bind, pure, Except.pure]
  cases CommitmentStore.buildRecord P store call sealed (store.seq + 1) (P.sha3Hex preimage) with
  | error error => simp [Except.toOption]
  | ok record => simp [Except.toOption, CommitmentStore.persist]

/-- The record a link carries is honest and sits on that link. -/
theorem record_of_linkOf {link : Link} (some : linkOf P store call = some link)
    {record : CommitmentRecord} (carried : link.record = .some record) :
    HonestRecord P store.signingKey record ∧ record.prevChainHash = link.prev ∧
      record.chainHash = link.digest ∧ record.seq = store.seq + 1 ∧
      linkPreimage P (.str record.prevChainHash) (.str record.bindingHash) record.txnId
        (.int record.timestampNs) = .ok link.preimage := by
  rcases linkOf_inversion P store call some with ⟨sealed, preimage, sealing, built, rfl⟩
  cases recorded : CommitmentStore.buildRecord P store call sealed (store.seq + 1)
      (P.sha3Hex preimage) with
  | error error => simp [recorded, Except.toOption] at carried
  | ok own =>
      simp only [recorded, Except.toOption, Option.some.injEq] at carried
      subst own
      rcases sealTransaction_inversion P store call sealing with
        ⟨⟨id, idEq⟩, ⟨blob, nonempty, encoded, hashed⟩, -, params⟩
      rcases buildRecord_inversion P store call recorded with
        ⟨txn, commitment, binding, stamp, profile, seqEq, prev, chain, pii, payload, made, signed⟩
      have linked : linkPreimage P (.str record.prevChainHash) (.str record.bindingHash)
          record.txnId (.int record.timestampNs) = .ok preimage := by
        rw [prev, binding, txn, stamp]
        exact built
      refine ⟨⟨⟨id, txn.trans idEq⟩, ⟨blob, nonempty, commitment.trans encoded,
        binding.trans hashed⟩, ⟨preimage, linked, chain⟩, ⟨payload, ?_, signed⟩,
        profile.trans params, pii⟩, prev, chain, seqEq, linked⟩
      rw [txn, binding, stamp, chain]
      exact made

/-- A regular call appends an honest record on the head, or raises and leaves
the head and the keys alone. -/
theorem add_cases (regular : Regular call) :
    (∃ error, CommitmentStore.add P store calls call = (.error error, store)) ∨
    (∃ record after, CommitmentStore.add P store calls call = (.ok record, after) ∧
      HonestRecord P store.signingKey record ∧ record.prevChainHash = store.head ∧
      record.chainHash = after.head ∧ after.signingKey = store.signingKey ∧
      after.keypair = store.keypair) := by
  cases some : linkOf P store call with
  | none => exact Or.inl (add_of_linkOf_none P calls store call some)
  | some link =>
      rcases record_of_regular P store call some regular with ⟨record, carried⟩
      rcases record_of_linkOf P store call some carried with ⟨honest, prev, chain, -, -⟩
      rcases add_of_linkOf_some P calls store call some with ⟨head, -, keypair, signingKey, answer⟩
      rcases ran : CommitmentStore.add P store calls call with ⟨outcome, after⟩
      rw [ran] at head keypair signingKey answer
      rw [carried] at answer
      cases outcome with
      | error error => cases answer
      | ok own =>
          cases answer
          exact Or.inr ⟨record, after, rfl, honest,
            prev.trans (linkOf_fields P store call some).1, chain.trans head.symm, signingKey, keypair⟩

end Call

/-! ## Runs -/

section Run

variable {L : Type} (calls : LedgerCalls L)

/-- Without a persisted head a store starts from genesis. -/
theorem head_new {ledger : Option L} (genesis : ledger.bind calls.loadHead = none) {ringSize : Nat}
    {keypair : Lwe.LWEKeyPair} {masterKey : Bytes} {signingKey : SigningKey} :
    (CommitmentStore.new calls ledger ringSize keypair masterKey signingKey).head = GENESIS_HASH := by
  simp only [CommitmentStore.new, genesis, Option.getD_none]

/-- The records a sequence of calls appends, and the store it ends in. -/
def appended (store : CommitmentStore L) : List AddCall -> List CommitmentRecord × CommitmentStore L
  | [] => ([], store)
  | call :: rest =>
      let step := CommitmentStore.add P store calls call
      let later := appended step.2 rest
      (step.1.toOption.toList ++ later.1, later.2)

/-- The links of a run, in order. -/
def trace (store : CommitmentStore L) : List AddCall -> List Link
  | [] => []
  | call :: rest =>
      (linkOf P store call).toList ++ trace (CommitmentStore.add P store calls call).2 rest

variable (store : CommitmentStore L) (adds : List AddCall)

/-- The records of a run are the ones its links carry. -/
theorem appended_eq_filterMap :
    (appended P calls store adds).1 = (trace P calls store adds).filterMap Link.record := by
  induction adds generalizing store with
  | nil => rfl
  | cons call rest inductionHypothesis =>
      unfold appended trace
      rw [List.filterMap_append, ← inductionHypothesis]
      cases some : linkOf P store call with
      | none =>
          rcases add_of_linkOf_none P calls store call some with ⟨error, added⟩
          rw [added]
          rfl
      | some link =>
          rcases add_of_linkOf_some P calls store call some with ⟨-, -, -, -, carried⟩
          simp only [carried, Option.toList_some]
          cases record : link.record with
          | none => simp [record]
          | some own => simp [record]

/-- The links of a run form a chain from the head the store started with, and
the store ends on its tip. -/
theorem linked_trace :
    LinkChain.Linked Link.prev Link.digest store.head (trace P calls store adds) ∧
      LinkChain.tip Link.digest store.head (trace P calls store adds) =
        (appended P calls store adds).2.head := by
  induction adds generalizing store with
  | nil => exact ⟨trivial, rfl⟩
  | cons call rest inductionHypothesis =>
      have later := inductionHypothesis (CommitmentStore.add P store calls call).2
      unfold appended trace
      cases some : linkOf P store call with
      | none =>
          rcases add_of_linkOf_none P calls store call some with ⟨error, added⟩
          rw [added] at later ⊢
          exact later
      | some link =>
          rcases add_of_linkOf_some P calls store call some with ⟨head, -⟩
          rw [head] at later
          exact ⟨⟨(linkOf_fields P store call some).1, later.1⟩, later.2⟩

/-- No call changes the keys of the store. -/
theorem keys_add (call : AddCall) :
    (CommitmentStore.add P store calls call).2.signingKey = store.signingKey ∧
      (CommitmentStore.add P store calls call).2.keypair = store.keypair := by
  cases some : linkOf P store call with
  | none =>
      rcases add_of_linkOf_none P calls store call some with ⟨error, added⟩
      rw [added]
      exact ⟨rfl, rfl⟩
  | some link =>
      rcases add_of_linkOf_some P calls store call some with ⟨-, -, keypair, signingKey, -⟩
      exact ⟨signingKey, keypair⟩

/-- What holds of every link of a run. -/
structure HonestLink (key : SigningKey) (link : Link) : Prop where
  hashed : link.digest = P.sha3Hex link.preimage
  built : ∃ binding id stamp, IsDigest binding ∧
    linkPreimage P (.str link.prev) (.str binding) (.str id) stamp = .ok link.preimage
  prev : IsDigest link.prev
  carried : ∀ record, link.record = some record -> HonestRecord P key record ∧
    record.prevChainHash = link.prev ∧ record.chainHash = link.digest ∧
    linkPreimage P (.str record.prevChainHash) (.str record.bindingHash) record.txnId
      (.int record.timestampNs) = .ok link.preimage

theorem honest_linkOf {call : AddCall} {link : Link} (some : linkOf P store call = some link)
    (head : IsDigest store.head) : HonestLink P store.signingKey link := by
  rcases linkOf_fields P store call some with ⟨prev, hashed⟩
  refine ⟨hashed, ?_, by rw [prev]; exact head, ?_⟩
  · rcases linkOf_inversion P store call some with ⟨sealed, preimage, sealing, built, rfl⟩
    rcases sealTransaction_inversion P store call sealing with ⟨⟨id, idEq⟩, ⟨blob, -, -, binding⟩, -, -⟩
    refine ⟨_, id, _, ?_, idEq ▸ built⟩
    rw [binding]
    exact isDigest_sha3Hex P blob
  · intro record carried
    rcases record_of_linkOf P store call some carried with ⟨honest, prev, chain, -, linked⟩
    exact ⟨honest, prev, chain, linked⟩

/-- Every link of a run from a digest is honest. -/
theorem honest_trace (head : IsDigest store.head) {link : Link}
    (member : link ∈ trace P calls store adds) : HonestLink P store.signingKey link := by
  induction adds generalizing store with
  | nil => cases member
  | cons call rest inductionHypothesis =>
      have keys := keys_add P calls store call
      unfold trace at member
      cases some : linkOf P store call with
      | none =>
          rcases add_of_linkOf_none P calls store call some with ⟨error, added⟩
          rw [some, added] at member
          exact inductionHypothesis store head member
      | some first =>
          rcases add_of_linkOf_some P calls store call some with ⟨moved, -⟩
          rw [some] at member
          rcases List.mem_append.mp member with here | later
          · rw [List.mem_singleton.mp here]
            exact honest_linkOf P store some head
          · rw [← keys.1]
            refine inductionHypothesis _ ?_ later
            rw [moved, (linkOf_fields P store call some).2]
            exact isDigest_sha3Hex P _

end Run

/-! ## A ledger on the sample platform -/

/-- A durable ledger that keeps nothing. -/
def sampleCalls : LedgerCalls Unit where
  loadHead _ := none
  write ledger _ := ledger
  saveHead ledger _ _ := ledger
  available _ := false
  recent _ _ := []

def sampleKey : SigningKey := ⟨List.replicate 32 5, rfl⟩

def sampleStore : CommitmentStore Unit :=
  .new sampleCalls none HOT_RING_SIZE (Lwe.LWEKeyPair.generate samplePlatform Sample.latticeSeed) []
    sampleKey

theorem head_sampleStore : sampleStore.head = GENESIS_HASH := by
  unfold sampleStore
  exact head_new sampleCalls rfl

def sampleCall : AddCall :=
  { txnId := .str Sample.txnId
    amountCents := 150000
    accountId := Json.text "ACC-1"
    txnType := Json.text "RTGS"
    anomalyScore := .float .zero
    flagReason := Json.text "NONE"
    threshold := .finite (3 / 4)
    noveltyScore := .float .zero
    typologyScore := .float .zero
    nowNs := 1 }

theorem wellFormed_sampleCall : WellFormed sampleCall Sample.txnId where
  txnId := rfl
  idBytes := ⟨_, rfl⟩
  accountId := ⟨_, rfl⟩
  domain := by decide
  regular := ⟨⟨_, _, _, rfl, rfl, rfl⟩, rfl⟩

end Commitment
end ZeroAudit
