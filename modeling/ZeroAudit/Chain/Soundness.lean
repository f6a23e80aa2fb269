import ZeroAudit.Chain.Completeness
import ZeroAudit.Chain.History

namespace ZeroAudit
namespace Verify

open Foundation Signature Commitment

/-!
# A verified stream is a piece of the ledger

The verifier looks at one envelope at a time and remembers one hash.  What it
accepts is nevertheless a contiguous piece of an honest ledger.  The signature
ties an accepted envelope to the payload of some record, and the other checks
give the payload and the link the shape in which they can be read from the
right, so that the envelope carries the fields of that record.  The tracked
hash links the records to each other, and linked records of a chain without
repeated digests follow one another in it.

Collision freedom and unforgeability are asked for the byte strings that occur
in the run at hand.
-/

variable (P : Platform)

/-! ## Envelope and record -/

/-- An envelope that carries the fields of a record, and its commitment if it
carries one. -/
structure Agrees (envelope : Dict) (record : CommitmentRecord) : Prop where
  txnId : Dict.get envelope "txn_id" (Json.text "") = record.txnId
  bindingHash : Dict.get envelope "binding_hash" (Json.text "") = .str record.bindingHash
  timestampNs : Dict.get envelope "timestamp_ns" (.int 0) = .int record.timestampNs
  prevChainHash : Dict.get envelope "prev_chain_hash" (Json.text "") = .str record.prevChainHash
  chainHash : Dict.get envelope "chain_hash" (Json.text "") = .str record.chainHash
  commitment : (Dict.get envelope "commitment_b64" (Json.text "")).truthy = true ->
    ∃ blob, envelopeBlob envelope = .ok blob ∧ (Json.str record.commitmentB64).b64decode = .ok blob

/-- What the checks other than the signature say about the fields of a
verified envelope. -/
theorem fields_of_verified {verifier after : ExternalVerifier} {envelope : Dict} {report : Report}
    (ran : verifyEnvelope P verifier envelope = (.ok report, after)) (positive : report.verified = true) :
    LinkPasses P verifier.expectedPrev envelope ∧
    ∃ binding, Dict.get envelope "binding_hash" (Json.text "") = .str binding ∧ IsDigest binding ∧
      ((Dict.get envelope "commitment_b64" (Json.text "")).truthy = true ->
        ∃ blob, envelopeBlob envelope = .ok blob ∧ binding = P.sha3Hex blob) := by
  rcases verifyEnvelope_report P ran with
    ⟨signature, bound, link, lwe, -, checked, linked, -, -, verdict⟩
  rcases verdict.mp positive with ⟨-, boundPass, linkPass, -⟩
  refine ⟨⟨link, linked, linkPass⟩, ?_⟩
  rcases checkBinding_pass P checked boundPass with
    ⟨blob, -, decoded, same⟩ | ⟨unpublished, shaped⟩
  · exact ⟨_, same, isDigest_sha3Hex P blob, fun _ => ⟨blob, decoded, rfl⟩⟩
  · -- the format-only test and the link computation leave only a string of 64 digits
    rcases ((linkPasses_iff P _ envelope).mp ⟨link, linked, linkPass⟩).1 with ⟨preimage, built, -⟩
    rcases (linkPreimage_eq_ok_iff ..).mp built with ⟨_, binding, _, -, same, -⟩
    rw [same] at shaped
    rcases (hexShaped_str_iff binding).mp shaped with ⟨length, digits⟩
    refine ⟨binding, same, ⟨length, digits⟩, ?_⟩
    intro published
    rw [unpublished] at published
    cases published

/-- Under an installed key, a verified envelope has passed the signature check. -/
theorem signature_of_verified {key : SigningKey} {verifier after : ExternalVerifier} {envelope : Dict}
    {report : Report} (installed : verifier.pubkey = .str (key.publicKeyB64 P))
    (ran : verifyEnvelope P verifier envelope = (.ok report, after)) (positive : report.verified = true) :
    ∃ finding, checkSignature P (.str (key.publicKeyB64 P)) envelope = .ok finding ∧
      finding.status = .pass := by
  rcases verifyEnvelope_report P ran with
    ⟨signature, bound, link, lwe, signed, -, -, -, -, verdict⟩
  rw [installed] at signed
  have notSkip : signature.status ≠ .skip := by
    intro skipped
    have absent := (checkSignature_skip_iff P signed).mp skipped
    simp [SigningKey.publicKeyB64_ne_nil P key] at absent
  exact ⟨signature, signed, pass_of_ne (verdict.mp positive).1 notSkip⟩

/-- Payloads of one text determine the fields, if the last three hold no
separator.  The timestamps are integers. -/
theorem payload_injective {id id' binding binding' chain chain' : PyStr} {stamp stamp' : Int}
    {bytes : Bytes} (bindingDigest : IsDigest binding) (bindingDigest' : IsDigest binding')
    (chainDigest : IsDigest chain) (chainDigest' : IsDigest chain')
    (first : signingPayload P (.str id) (.str binding) (.int stamp) (.str chain) = .ok bytes)
    (second : signingPayload P (.str id') (.str binding') (.int stamp') (.str chain') = .ok bytes) :
    id = id' ∧ binding = binding' ∧ stamp = stamp' ∧ chain = chain' := by
  rcases (signingPayload_eq_ok_iff ..).mp first with ⟨_, _, _, same, same', same'', encoded⟩
  cases same
  cases same'
  cases same''
  rcases (signingPayload_eq_ok_iff ..).mp second with ⟨_, _, _, same, same', same'', encoded'⟩
  cases same
  cases same'
  cases same''
  rcases payloadText_injective (separatorFree_of_hexDigits bindingDigest.digits)
    (separatorFree_of_hexDigits bindingDigest'.digits) (separatorFree_decimal stamp)
    (separatorFree_decimal stamp') (separatorFree_of_hexDigits chainDigest.digits)
    (separatorFree_of_hexDigits chainDigest'.digits) (PyStr.utf8_injective encoded encoded') with
    ⟨ids, bindings, stamps, chains⟩
  exact ⟨ids, bindings, PyStr.decimal_injective stamps, chains⟩

/-- Links of one preimage that agree in everything after the predecessor agree
in the predecessor. -/
theorem prev_of_linkPreimage {prev prev' : PyStr} {binding id stamp : Json} {bytes : Bytes}
    (first : linkPreimage P (.str prev) binding id stamp = .ok bytes)
    (second : linkPreimage P (.str prev') binding id stamp = .ok bytes) : prev = prev' := by
  rcases (linkPreimage_eq_ok_iff ..).mp first with ⟨_, b, i, same, rfl, rfl, encoded⟩
  cases same
  rcases (linkPreimage_eq_ok_iff ..).mp second with ⟨_, _, _, same, same', same'', encoded'⟩
  cases same
  cases same'
  cases same''
  exact List.append_cancel_right (PyStr.utf8_injective encoded encoded')

/-! ## The run at hand -/

section Run

variable {L : Type} (calls : LedgerCalls L) (store : CommitmentStore L) (adds : List AddCall)
  (stream : List Dict)

/-- The byte strings that are hashed when the ledger is built and when the
stream is verified. -/
def Hashed : Set Bytes := fun message =>
  (∃ link ∈ trace P calls store adds, link.preimage = message) ∨
  (∃ record ∈ (appended P calls store adds).1,
    (Json.str record.commitmentB64).b64decode = .ok message) ∨
  ∃ envelope ∈ stream, envelopeLink P envelope = .ok message ∨ envelopeBlob envelope = .ok message

/-- The prover signed this payload for a record it returned. -/
def Signed (payload : Bytes) : Prop :=
  ∃ record ∈ (appended P calls store adds).1,
    signingPayload P record.txnId (.str record.bindingHash) (.int record.timestampNs)
      (.str record.chainHash) = .ok payload

/-- Among the byte strings of this run, equal digests come from equal strings. -/
def CollisionFree : Prop := Set.InjOn P.sha3 (Hashed P calls store adds stream)

/-- A signature in the stream that verifies under the prover's key is one over
a payload the prover signed. -/
def Unforgeable : Prop :=
  ∀ envelope ∈ stream, ∀ signature payload, envelopeSignature envelope = .ok signature ->
    envelopePayload P envelope = .ok payload ->
    P.ed25519.verify (store.signingKey.publicBytes P) signature payload = true ->
    Signed P calls store adds payload

variable {calls store adds stream}

theorem sha3Hex_injective (collisionFree : CollisionFree P calls store adds stream)
    {message other : Bytes} (first : Hashed P calls store adds stream message)
    (second : Hashed P calls store adds stream other)
    (equal : P.sha3Hex message = P.sha3Hex other) : message = other :=
  collisionFree first second (hex_injective equal)

/-- A verified envelope carries a payload that was signed for some record. -/
theorem signed_of_verified (unforgeable : Unforgeable P calls store adds stream) {envelope : Dict}
    (member : envelope ∈ stream) {verifier after : ExternalVerifier} {report : Report}
    (installed : verifier.pubkey = .str (store.signingKey.publicKeyB64 P))
    (ran : verifyEnvelope P verifier envelope = (.ok report, after))
    (positive : report.verified = true) :
    ∃ payload, envelopePayload P envelope = .ok payload ∧ Signed P calls store adds payload := by
  rcases signature_of_verified P installed ran positive with ⟨signature, signed, pass⟩
  rcases checkSignature_pass_key P signed pass with ⟨bytes, payload, decoded, payloadBuilt, accepted⟩
  exact ⟨payload, payloadBuilt,
    unforgeable envelope member bytes payload decoded payloadBuilt accepted⟩

/-- Every record of the ledger sits on an honest link of the trace. -/
theorem link_of_record (genesis : store.head = GENESIS_HASH) {record : CommitmentRecord}
    (member : record ∈ (appended P calls store adds).1) :
    ∃ link ∈ trace P calls store adds, link.record = some record ∧
      HonestLink P store.signingKey link := by
  rw [appended_eq_filterMap] at member
  rcases List.mem_filterMap.mp member with ⟨link, onTrace, carried⟩
  exact ⟨link, onTrace, carried,
    honest_trace P calls store adds (genesis ▸ isDigest_genesis) onTrace⟩

/-- A published commitment with the binding hash of a record is the one of the
record. -/
theorem sameBlob_of_bindingHash (collisionFree : CollisionFree P calls store adds stream)
    {envelope : Dict} (member : envelope ∈ stream) {record : CommitmentRecord}
    (recordMember : record ∈ (appended P calls store adds).1)
    (honest : HonestRecord P store.signingKey record) {blob : Bytes}
    (decoded : envelopeBlob envelope = .ok blob) (hashed : record.bindingHash = P.sha3Hex blob) :
    (Json.str record.commitmentB64).b64decode = .ok blob := by
  rcases honest.commitment with ⟨ownBlob, -, encoded, ownHashed⟩
  have ownDecoded : (Json.str record.commitmentB64).b64decode = .ok ownBlob := by
    rw [encoded]
    exact Json.b64decode_encode ownBlob
  have same : blob = ownBlob :=
    sha3Hex_injective P collisionFree (Or.inr (Or.inr ⟨envelope, member, Or.inr decoded⟩))
      (Or.inr (Or.inl ⟨record, recordMember, ownDecoded⟩)) (hashed.symm.trans ownHashed)
  rw [same]
  exact ownDecoded

/-- A verified envelope carries the fields of a record of the ledger, and sits
where the link of that record sits. -/
theorem agrees_of_verified (genesis : store.head = GENESIS_HASH)
    (collisionFree : CollisionFree P calls store adds stream)
    (unforgeable : Unforgeable P calls store adds stream) {envelope : Dict}
    (member : envelope ∈ stream) {stamp : Int}
    (integer : Dict.get envelope "timestamp_ns" (.int 0) = .int stamp)
    {verifier after : ExternalVerifier} {report : Report}
    (installed : verifier.pubkey = .str (store.signingKey.publicKeyB64 P))
    (ran : verifyEnvelope P verifier envelope = (.ok report, after))
    (positive : report.verified = true) :
    ∃ link ∈ trace P calls store adds, ∃ record, link.record = some record ∧
      Agrees envelope record ∧ link.prev = record.prevChainHash ∧
      link.digest = record.chainHash := by
  rcases fields_of_verified P ran positive with ⟨passes, binding, bindingEq, bindingDigest, blobs⟩
  rcases (linkPasses_iff P _ envelope).mp passes with ⟨⟨preimage, linkBuilt, chainEq⟩, -⟩
  rcases signed_of_verified P unforgeable member installed ran positive with
    ⟨payload, payloadBuilt, record, recordMember, recordPayload⟩
  rcases link_of_record P genesis recordMember with ⟨own, ownMember, carried, honestLink⟩
  rcases honestLink.carried record carried with ⟨honest, prevEq, digestEq, ownBuilt⟩
  -- read the payload from the right
  unfold envelopePayload at payloadBuilt
  rw [bindingEq, integer, chainEq] at payloadBuilt
  rcases honest.txnId with ⟨id, idEq⟩
  rcases (signingPayload_eq_ok_iff ..).mp payloadBuilt with ⟨envelopeId, _, _, envelopeIdEq, -, -, -⟩
  rw [envelopeIdEq] at payloadBuilt
  rw [idEq] at recordPayload
  rcases payload_injective P bindingDigest (honest.bindingHash_isDigest P) (isDigest_sha3Hex P preimage)
    (honest.chainHash_isDigest P) payloadBuilt recordPayload with
    ⟨rfl, rfl, rfl, chains⟩
  -- one chain hash, hence one preimage, hence one predecessor
  have preimages : preimage = own.preimage := by
    apply sha3Hex_injective P collisionFree (Or.inr (Or.inr ⟨envelope, member, Or.inl linkBuilt⟩))
      (Or.inl ⟨own, ownMember, rfl⟩)
    rw [chains, digestEq, honestLink.hashed]
  subst preimages
  have envelopeLinkBuilt := linkBuilt
  unfold envelopeLink at envelopeLinkBuilt
  rw [bindingEq, integer, envelopeIdEq] at envelopeLinkBuilt
  rw [idEq] at ownBuilt
  rcases (linkPreimage_eq_ok_iff ..).mp envelopeLinkBuilt with ⟨prev, _, _, prevGet, -, -, -⟩
  rw [prevGet] at envelopeLinkBuilt
  have prevs := prev_of_linkPreimage P envelopeLinkBuilt ownBuilt
  refine ⟨own, ownMember, record, carried,
    ⟨envelopeIdEq.trans idEq.symm, bindingEq, integer, ?_, ?_, ?_⟩, prevEq.symm, digestEq.symm⟩
  · rw [prevGet, prevs]
  · rw [chainEq, chains]
  · intro published
    rcases blobs published with ⟨blob, blobDecoded, hashed⟩
    exact ⟨blob, blobDecoded,
      sameBlob_of_bindingHash P collisionFree member recordMember honest blobDecoded hashed⟩

/-- The links of a verified stream follow one another, from the hash the
verifier expects, if it expects one. -/
theorem links_of_verified (genesis : store.head = GENESIS_HASH)
    (collisionFree : CollisionFree P calls store adds stream)
    (unforgeable : Unforgeable P calls store adds stream) {seen : List Dict}
    (members : ∀ envelope ∈ seen, envelope ∈ stream)
    (integers : ∀ envelope ∈ seen, ∃ stamp, Dict.get envelope "timestamp_ns" (.int 0) = .int stamp)
    {verifier : ExternalVerifier}
    (installed : verifier.pubkey = .str (store.signingKey.publicKeyB64 P))
    (verified : AllVerified (verifyAll P verifier seen).1) :
    ∃ links, (∀ link ∈ links, link ∈ trace P calls store adds) ∧
      List.Forall₂ (fun envelope link => ∃ record, link.record = some record ∧ Agrees envelope record)
        seen links ∧
      ∃ before, (∀ expected, verifier.expectedPrev = some expected -> before = expected) ∧
        LinkChain.Linked Link.prev Link.digest before links := by
  induction seen generalizing verifier with
  | nil =>
      refine ⟨[], fun _ member => (List.not_mem_nil member).elim, List.Forall₂.nil,
        verifier.expectedPrev.getD [], ?_, trivial⟩
      intro expected waiting
      rw [waiting]
      rfl
  | cons envelope rest inductionHypothesis =>
      unfold AllVerified verifyAll at verified
      rw [Machine.run_cons, List.forall_mem_cons] at verified
      rcases verified with ⟨⟨report, answered, positive⟩, later⟩
      rcases ran : verifyEnvelope P verifier envelope with ⟨outcome, after⟩
      rw [ran] at answered later
      cases answered
      rcases integers envelope List.mem_cons_self with ⟨stamp, integer⟩
      rcases agrees_of_verified P genesis collisionFree unforgeable
        (members envelope List.mem_cons_self) integer installed ran positive with
        ⟨link, onTrace, record, carried, agrees, prevEq, digestEq⟩
      have key := pubkey_verifyEnvelope P verifier envelope
      rw [ran] at key
      have passes := (fields_of_verified P ran positive).1
      have moved := (expectedPrev_of_linkPasses P ran passes agrees.chainHash).1
      rcases inductionHypothesis (fun other member => members other (List.mem_cons_of_mem _ member))
        (fun other member => integers other (List.mem_cons_of_mem _ member))
        (key.trans installed) later with ⟨links, onTraces, agree, before, expects, linked⟩
      have next := expects _ moved
      refine ⟨link :: links, ?_, List.Forall₂.cons ⟨record, carried, agrees⟩ agree, link.prev, ?_, rfl,
        ?_⟩
      · rw [List.forall_mem_cons]
        exact ⟨onTrace, onTraces⟩
      · intro expected waiting
        have named := ((linkPasses_iff P _ envelope).mp passes).2 expected waiting
        rw [agrees.prevChainHash] at named
        cases named
        exact prevEq
      · rw [digestEq, ← next]
        exact linked

/-- Links that all carry a record stand for their records. -/
theorem records_of_links {seen : List Dict} {links : List Link}
    (agree : List.Forall₂
      (fun envelope link => ∃ record, link.record = some record ∧ Agrees envelope record) seen links) :
    List.Forall₂ Agrees seen (links.filterMap Link.record) := by
  induction agree with
  | nil => exact List.Forall₂.nil
  | cons carried rest inductionHypothesis =>
      rcases carried with ⟨record, some, agrees⟩
      rw [List.filterMap_cons_some some]
      exact List.Forall₂.cons agrees inductionHypothesis

/-- Links carry different digests unless they name one predecessor. -/
theorem trace_binding (genesis : store.head = GENESIS_HASH)
    (collisionFree : CollisionFree P calls store adds stream) {a b : Link}
    (aMember : a ∈ trace P calls store adds) (bMember : b ∈ trace P calls store adds)
    (equal : a.digest = b.digest) : a.prev = b.prev := by
  have aHonest := honest_trace P calls store adds (genesis ▸ isDigest_genesis) aMember
  have bHonest := honest_trace P calls store adds (genesis ▸ isDigest_genesis) bMember
  rw [aHonest.hashed, bHonest.hashed] at equal
  have preimages := sha3Hex_injective P collisionFree (Or.inl ⟨a, aMember, rfl⟩)
    (Or.inl ⟨b, bMember, rfl⟩) equal
  rcases aHonest.built with ⟨_, _, _, aBinding, aBuilt⟩
  rcases bHonest.built with ⟨_, _, _, bBinding, bBuilt⟩
  rw [preimages] at aBuilt
  exact (linkPreimage_injective P aHonest.prev bHonest.prev aBinding bBinding aBuilt bBuilt).1

end Run

/-- Soundness over a stream.  Whatever envelopes are fed to a fresh verifier
that holds the prover's key: if every one of them is verified, they are a
contiguous segment of the ledger, record by record. -/
theorem verified_stream_isInfix {L : Type} (calls : LedgerCalls L) (store : CommitmentStore L)
    (adds : List AddCall) (stream : List Dict) (genesis : store.head = GENESIS_HASH)
    (integers : ∀ envelope ∈ stream, ∃ stamp,
      Dict.get envelope "timestamp_ns" (.int 0) = .int stamp)
    (collisionFree : CollisionFree P calls store adds stream)
    (fresh : ∀ message, Hashed P calls store adds stream message -> P.sha3Hex message ≠ GENESIS_HASH)
    (unforgeable : Unforgeable P calls store adds stream)
    (verified : AllVerified
      (verifyAll P (.new (.str (store.signingKey.publicKeyB64 P))) stream).1) :
    ∃ segment, segment <:+: (appended P calls store adds).1 ∧ List.Forall₂ Agrees stream segment := by
  rcases links_of_verified P genesis collisionFree unforgeable (fun _ member => member) integers rfl
    verified with ⟨links, members, agree, before, -, follows⟩
  have chain := (linked_trace P calls store adds).1
  rw [genesis] at chain
  have contiguous : links <:+: trace P calls store adds :=
    LinkChain.linked_isInfix chain
      (fun a aMember b bMember => trace_binding P genesis collisionFree aMember bMember)
      (fun link member => by
        rw [(honest_trace P calls store adds (genesis ▸ isDigest_genesis) member).hashed]
        exact fresh _ (Or.inl ⟨link, member, rfl⟩))
      members follows
  refine ⟨links.filterMap Link.record, ?_, ?_⟩
  · rw [appended_eq_filterMap]
    exact contiguous.filterMap Link.record
  · exact records_of_links agree

/-! ## Copies of the exports -/

section Copies

variable {L : Type} {calls : LedgerCalls L} {store : CommitmentStore L} {adds : List AddCall} {stream : List Dict}

/-- The links of the records are hashed on the trace. -/
theorem trace_of_linkBytes (genesis : store.head = GENESIS_HASH) {message : Bytes}
    (own : message ∈ LinkBytes P (appended P calls store adds).1) :
    ∃ link ∈ trace P calls store adds, link.preimage = message := by
  rcases own with ⟨record, member, built⟩
  rcases link_of_record P genesis member with ⟨link, onTrace, carried, honest⟩
  rcases honest.carried record carried with ⟨-, -, -, linked⟩
  exact ⟨link, onTrace, Except.ok.inj (linked.symm.trans built)⟩

/-- The envelope has the link and the commitment of a record of the ledger. -/
def Copies (P : Platform) (records : List CommitmentRecord) (envelope : Dict) : Prop :=
  ∃ record ∈ records, envelopeLink P envelope = envelopeLink P record.toExportDict ∧
    envelopeBlob envelope = envelopeBlob record.toExportDict

/-- With nothing but copies to read, only the links and the commitments of the ledger
are hashed. -/
theorem hashed_of_copies (genesis : store.head = GENESIS_HASH)
    (copies : ∀ envelope ∈ stream, Copies P (appended P calls store adds).1 envelope) {message : Bytes}
    (hashed : Hashed P calls store adds stream message) :
    (∃ link ∈ trace P calls store adds, link.preimage = message) ∨
      ∃ record ∈ (appended P calls store adds).1, (Json.str record.commitmentB64).b64decode = .ok message := by
  rcases hashed with ⟨link, member, rfl⟩ | ⟨record, member, read⟩ | ⟨envelope, member, read | read⟩
  · exact Or.inl ⟨link, member, rfl⟩
  · exact Or.inr ⟨record, member, read⟩
  · rcases copies envelope member with ⟨record, listed, link, -⟩
    rw [link, envelopeLink_export] at read
    exact Or.inl (trace_of_linkBytes P genesis ⟨record, listed, read⟩)
  · rcases copies envelope member with ⟨record, listed, -, blob⟩
    rw [blob, envelopeBlob, export_commitmentB64] at read
    exact Or.inr ⟨record, listed, read⟩

end Copies

/-! ## A closed instance -/

/-- The strings hashed for copies of the sample ledger do not collide. -/
theorem collisionFree_sampleAdds {stream : List Dict}
    (copies : ∀ envelope ∈ stream,
      Copies samplePlatform (appended samplePlatform sampleCalls sampleStore sampleAdds).1 envelope) :
    CollisionFree samplePlatform sampleCalls sampleStore sampleAdds stream := by
  rcases ledger_sampleAdds with ⟨links, first, second, blob, traced, added, lengths, published⟩
  refine Sample.injOn_of_lengths (lengths ▸ (by decide) :
    (((links.map Link.preimage ++ [blob]).map List.length).map (· % 256)).Nodup) ?_
  intro message hashed
  rcases hashed_of_copies samplePlatform head_sampleStore copies hashed with
    ⟨link, member, rfl⟩ | ⟨record, member, read⟩
  · rw [traced] at member
    exact List.mem_append_left _ (List.mem_map_of_mem member)
  · rw [added] at member
    rw [published record member, Json.b64decode_encode] at read
    exact List.mem_append_right _ (List.mem_singleton.mpr (Except.ok.inj read).symm)

/-- The exports of a ledger of two records are verified, and are a segment of it. -/
theorem verified_stream_isInfix_sample :
    ∃ first second segment, (appended samplePlatform sampleCalls sampleStore sampleAdds).1 = [first, second] ∧
      segment <:+: (appended samplePlatform sampleCalls sampleStore sampleAdds).1 ∧
      List.Forall₂ Agrees [first.toExportDict, second.toExportDict] segment := by
  rcases ledger_sampleAdds with ⟨_, first, second, _, -, added, -⟩
  have chain := linked_appended samplePlatform sampleStore sampleCalls regular_sampleAdds
  rw [added] at chain
  have installed : (ExternalVerifier.new (.str (sampleStore.signingKey.publicKeyB64 samplePlatform))).pubkey =
      .str (sampleStore.signingKey.publicKeyB64 samplePlatform) := rfl
  have verified := verifyAll_exports samplePlatform [first, second] chain.2 chain.1 installed (Or.inl rfl)
  have listed : ∀ envelope ∈ [first.toExportDict, second.toExportDict],
      ∃ record ∈ (appended samplePlatform sampleCalls sampleStore sampleAdds).1, record.toExportDict = envelope := by
    intro envelope member
    rw [added]
    exact List.mem_map.mp member
  have segment : ∃ segment, segment <:+: (appended samplePlatform sampleCalls sampleStore sampleAdds).1 ∧
      List.Forall₂ Agrees [first.toExportDict, second.toExportDict] segment := by
    refine verified_stream_isInfix samplePlatform sampleCalls sampleStore sampleAdds _ head_sampleStore ?_ ?_ ?_ ?_ ?_
    · intro envelope member
      rcases listed envelope member with ⟨record, -, rfl⟩
      exact ⟨_, export_timestampNs record _⟩
    · apply collisionFree_sampleAdds
      intro envelope member
      rcases listed envelope member with ⟨record, own, rfl⟩
      exact ⟨record, own, rfl, rfl⟩
    · intro message _
      exact Sample.sha3Hex_ne_genesis message
    · intro envelope member signature payload _ payloadBuilt _
      rcases listed envelope member with ⟨record, own, rfl⟩
      rw [envelopePayload_export] at payloadBuilt
      exact ⟨record, own, payloadBuilt⟩
    · intro outcome member
      rcases verified.1 outcome member with ⟨report, answered, positive, -⟩
      exact ⟨report, answered, positive⟩
  rcases segment with ⟨segment, part, agrees⟩
  exact ⟨first, second, segment, added, part, agrees⟩

end Verify
end ZeroAudit
