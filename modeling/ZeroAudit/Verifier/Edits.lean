import ZeroAudit.Chain.History
import ZeroAudit.Chain.Soundness
import ZeroAudit.Verifier.Exposure
import ZeroAudit.Verifier.Malformed

namespace ZeroAudit
namespace Verify

open Foundation Signature Commitment

/-!
# Edits the verifier can and cannot see

The five checks read nine fields of an envelope and the names of the
forbidden ones.  Everything else, the verdict of the prover among it, can be
edited and the envelope is still verified.  Conversely an altered copy fails
exactly if it is no longer attested: if no record of the ledger that fits its
place carries what the copy has in the fields that the checks read.
-/

variable (P : Platform)

/-- The fields of the published verdict, which no check reads. -/
def EDITABLE_FIELDS : List String :=
  ["seq", "status", "anomaly_score", "flag_reason", "novelty_score", "typology_score", "account_hash",
    "txn_type"]

/-- A copy that differs in those fields at most. -/
def SameOutside (copy envelope : Dict) : Prop :=
  ∀ field, field ∉ EDITABLE_FIELDS -> Dict.find copy field = Dict.find envelope field

/-- The agreed parameters, whatever else the field holds. -/
def Profiled (copy : Dict) : Prop :=
  ∃ params, ((Dict.get copy "lwe_params" (.obj [])).orElse (.obj [])).asDict = .ok params ∧
    ∀ entry ∈ EXPECTED_LWE, (Dict.get params entry.1 .null).eqInt entry.2 = true

/-- The copy carries what was linked and signed for the record, its commitment
or none, a signature that verifies, and what the last two checks ask for.  The
id and the timestamp are read together, as the text that is linked and the one
that is signed. -/
structure Attests (key : SigningKey) (copy : Dict) (record : CommitmentRecord) : Prop where
  bindingHash : Dict.get copy "binding_hash" (Json.text "") = .str record.bindingHash
  prevChainHash : Dict.get copy "prev_chain_hash" (Json.text "") = .str record.prevChainHash
  chainHash : Dict.get copy "chain_hash" (Json.text "") = .str record.chainHash
  linked : envelopeLink P copy = envelopeLink P record.toExportDict
  signed : envelopePayload P copy = envelopePayload P record.toExportDict
  commitment : (Dict.get copy "commitment_b64" (Json.text "")).truthy = true ->
    ∃ blob, envelopeBlob copy = .ok blob ∧ (Json.str record.commitmentB64).b64decode = .ok blob
  signature : (Dict.get copy "signature_b64" (Json.text "")).truthy = true ∧
    ∃ signature payload, envelopeSignature copy = .ok signature ∧ envelopePayload P copy = .ok payload ∧
      P.ed25519.verify (key.publicBytes P) signature payload = true
  lweParams : Profiled copy
  piiAssertion : Api.Clean copy

/-- The copy has the types that the checks need to come to a report. -/
structure Readable (copy : Dict) : Prop where
  linked : ∃ preimage, envelopeLink P copy = .ok preimage
  chainHash : (Dict.get copy "signature_b64" (Json.text "")).truthy = true ->
    (∃ signature, envelopeSignature copy = .ok signature) ->
      ∃ chainHash, Dict.get copy "chain_hash" (Json.text "") = .str chainHash
  lweParams : ∃ params, ((Dict.get copy "lwe_params" (.obj [])).orElse (.obj [])).asDict = .ok params

/-- A verifier with the prover's key that waits for this record, or for the first
one it hears. -/
structure AtPlace (key : SigningKey) (record : CommitmentRecord) (verifier : ExternalVerifier) : Prop where
  installed : verifier.pubkey = .str (key.publicKeyB64 P)
  expects : verifier.expectedPrev = none ∨ verifier.expectedPrev = some record.prevChainHash

/-- The verifier reports that the copy is not verified. -/
def Flagged (verifier : ExternalVerifier) (copy : Dict) : Prop :=
  ∃ report, (verifyEnvelope P verifier copy).1 = .ok report ∧ report.verified = false

/-- LWE_PARAMS passes exactly on the agreed parameters. -/
theorem checkLwe_pass_iff (record : Dict) :
    (∃ finding, checkLwe P record = .ok finding ∧ finding.status = .pass) ↔ Profiled record := by
  unfold checkLwe Profiled
  simp only [bind_eq_ok_iff]
  constructor
  · rintro ⟨finding, ⟨params, read, found⟩, pass⟩
    cases found
    rw [note_status] at pass
    exact ⟨params, read, fun entry member => List.all_eq_true.mp pass entry member⟩
  · rintro ⟨params, read, agreed⟩
    refine ⟨_, ⟨params, read, rfl⟩, ?_⟩
    rw [note_status]
    exact List.all_eq_true.mpr agreed

section Copy

variable {P} {key : SigningKey} {copy : Dict} {record : CommitmentRecord}

/-! ## What an attested copy passes -/

theorem checkSignature_of_attests (attests : Attests P key copy record) :
    ∃ finding, checkSignature P (.str (key.publicKeyB64 P)) copy = .ok finding ∧
      finding.status = .pass := by
  rcases attests.signature with ⟨present, signature, payload, decoded, built, accepted⟩
  rw [checkSignature_pass_iff]
  refine ⟨by simpa using SigningKey.publicKeyB64_ne_nil P key, present, ?_⟩
  rw [verifySignature_eq_true_iff]
  exact ⟨_, signature, payload, b64decode_publicKeyB64 P key, P.ed25519.publicKey_length key.seed,
    decoded, built, accepted⟩

theorem checkBinding_of_attests (honest : HonestRecord P key record)
    (attests : Attests P key copy record) :
    ∃ finding, checkBinding P copy = .ok finding ∧ finding.status = .pass := by
  cases published : (Dict.get copy "commitment_b64" (Json.text "")).truthy with
  | true =>
      rcases attests.commitment published with ⟨blob, decoded, same⟩
      rcases honest.commitment with ⟨own, -, encoded, hashed⟩
      rw [encoded, Json.b64decode_encode] at same
      cases same
      unfold envelopeBlob at decoded
      unfold checkBinding
      simp only [published, if_true, decoded, attests.bindingHash]
      exact ⟨_, rfl, by simp [note, hashed]⟩
  | false =>
      have digest := honest.bindingHash_isDigest P
      have shaped := (hexShaped_str_iff _).mpr ⟨digest.length, digest.digits⟩
      unfold checkBinding
      simp only [published, Bool.false_eq_true, if_false, attests.bindingHash, shaped]
      exact ⟨_, rfl, rfl⟩

theorem linkPasses_of_attests (honest : HonestRecord P key record)
    (attests : Attests P key copy record) {expectedPrev : Option PyStr}
    (fits : ∀ expected, expectedPrev = some expected -> record.prevChainHash = expected) :
    LinkPasses P expectedPrev copy := by
  rcases honest.link with ⟨preimage, built, chained⟩
  rw [linkPasses_iff]
  constructor
  · refine ⟨preimage, ?_, ?_⟩
    · rw [attests.linked, envelopeLink_export, built]
    · rw [attests.chainHash, chained]
  · intro expected expects
    rw [attests.prevChainHash, fits expected expects]

/-- A copy that is attested by a record that fits is verified. -/
theorem verified_of_attests (honest : HonestRecord P key record) (attests : Attests P key copy record)
    {verifier : ExternalVerifier} (installed : verifier.pubkey = .str (key.publicKeyB64 P))
    (fits : ∀ expected, verifier.expectedPrev = some expected -> record.prevChainHash = expected) :
    ∃ report after, verifyEnvelope P verifier copy = (.ok report, after) ∧ report.verified = true := by
  rcases checkSignature_of_attests attests with ⟨signature, signed, signaturePass⟩
  rcases checkBinding_of_attests honest attests with ⟨binding, bound, bindingPass⟩
  rcases linkPasses_of_attests honest attests fits with ⟨link, linked, linkPass⟩
  rcases (checkLwe_pass_iff P copy).mpr attests.lweParams with ⟨lwe, profile, lwePass⟩
  rw [← installed] at signed
  have ran := (verifyEnvelope_eq_ok_iff P).mpr
    ⟨signature, binding, link, lwe, signed, bound, linked, profile, rfl⟩
  refine ⟨_, _, ran, ?_⟩
  rcases verifyEnvelope_report P ran with
    ⟨signature', binding', link', lwe', signed', bound', linked', profile', -, verdict⟩
  cases signed.symm.trans signed'
  cases bound.symm.trans bound'
  cases linked.symm.trans linked'
  cases profile.symm.trans profile'
  refine verdict.mpr ⟨?_, bindingPass, linkPass, lwePass,
    (Api.clean_iff_checkPii P copy).mp attests.piiAssertion⟩
  rw [signaturePass]
  exact fun fails => by cases fails

theorem not_flagged_of_attests (honest : HonestRecord P key record) (attests : Attests P key copy record)
    {verifier : ExternalVerifier} (installed : verifier.pubkey = .str (key.publicKeyB64 P))
    (fits : ∀ expected, verifier.expectedPrev = some expected -> record.prevChainHash = expected) :
    ¬Flagged P verifier copy := by
  rintro ⟨report, answered, negative⟩
  rcases verified_of_attests honest attests installed fits with ⟨other, after, ran, positive⟩
  rw [ran] at answered
  cases answered
  rw [negative] at positive
  cases positive

/-- At the place of a record, another one fits if it has the same predecessor,
unless the verifier takes any. -/
theorem AtPlace.fits_iff {verifier : ExternalVerifier} (place : AtPlace P key record verifier)
    (own : CommitmentRecord) :
    (∀ expected, verifier.expectedPrev = some expected -> own.prevChainHash = expected) ↔
      (verifier.expectedPrev ≠ none -> own.prevChainHash = record.prevChainHash) := by
  rcases place.expects with nothing | named
  · simp [nothing]
  · simp [named]

/-! ## The exported verdict -/

theorem get_of_sameOutside {envelope : Dict} (same : SameOutside copy envelope) {field : String}
    (read : field ∉ EDITABLE_FIELDS) (default : Json) :
    Dict.get copy field default = Dict.get envelope field default := by
  unfold Dict.get
  rw [same field read]

/-- What the checks read of a copy that differs in the verdict only. -/
theorem reads_of_sameOutside {envelope : Dict} (same : SameOutside copy envelope) :
    envelopeLink P copy = envelopeLink P envelope ∧ envelopePayload P copy = envelopePayload P envelope ∧
      envelopeBlob copy = envelopeBlob envelope ∧
      envelopeSignature copy = envelopeSignature envelope ∧
      checkLwe P copy = checkLwe P envelope ∧ checkPii P copy = checkPii P envelope := by
  have txnId := get_of_sameOutside same (by decide : "txn_id" ∉ EDITABLE_FIELDS) (Json.text "")
  have binding := get_of_sameOutside same (by decide : "binding_hash" ∉ EDITABLE_FIELDS) (Json.text "")
  have prev := get_of_sameOutside same (by decide : "prev_chain_hash" ∉ EDITABLE_FIELDS) (Json.text "")
  have chain := get_of_sameOutside same (by decide : "chain_hash" ∉ EDITABLE_FIELDS) (Json.text "")
  have stamp := get_of_sameOutside same (by decide : "timestamp_ns" ∉ EDITABLE_FIELDS) (.int 0)
  have blob := get_of_sameOutside same (by decide : "commitment_b64" ∉ EDITABLE_FIELDS) (Json.text "")
  have signature := get_of_sameOutside same (by decide : "signature_b64" ∉ EDITABLE_FIELDS) (Json.text "")
  have lwe := get_of_sameOutside same (by decide : "lwe_params" ∉ EDITABLE_FIELDS) (.obj [])
  have pii := get_of_sameOutside same (by decide : "pii_bytes" ∉ EDITABLE_FIELDS) (.int 0)
  have forbidden : FORBIDDEN_FIELDS.filter (fun field => Dict.has copy field) =
      FORBIDDEN_FIELDS.filter fun field => Dict.has envelope field := by
    apply List.filter_congr
    intro field member
    unfold Dict.has
    rw [same field]
    intro edited
    have apart : ∀ field ∈ FORBIDDEN_FIELDS, field ∉ EDITABLE_FIELDS := by decide
    exact apart field member edited
  refine ⟨?_, ?_, ?_, ?_, ?_, ?_⟩
  · rw [envelopeLink, envelopeLink, txnId, binding, prev, stamp]
  · rw [envelopePayload, envelopePayload, txnId, binding, chain, stamp]
  · rw [envelopeBlob, envelopeBlob, blob]
  · rw [envelopeSignature, envelopeSignature, signature]
  · rw [checkLwe, checkLwe, lwe]
  · rw [checkPii, checkPii, pii, forbidden]

/-- An honest envelope is attested whatever verdict it carries. -/
theorem attests_of_sameOutside (honest : HonestRecord P key record)
    (same : SameOutside copy record.toExportDict) : Attests P key copy record := by
  rcases reads_of_sameOutside (P := P) same with ⟨link, payload, blob, signature, lwe, pii⟩
  rcases honest.signature with ⟨message, built, signed⟩
  refine ⟨(get_of_sameOutside same (by decide) _).trans (export_bindingHash record _),
    (get_of_sameOutside same (by decide) _).trans (export_prevChainHash record _),
    (get_of_sameOutside same (by decide) _).trans (export_chainHash record _), link, payload, ?_, ?_, ?_, ?_⟩
  · intro _
    rcases honest.commitment with ⟨own, -, encoded, -⟩
    refine ⟨own, ?_, ?_⟩
    · rw [blob, envelopeBlob, export_commitmentB64, encoded, Json.b64decode_encode]
    · rw [encoded, Json.b64decode_encode]
  · constructor
    · rw [get_of_sameOutside same (by decide), export_signatureB64, signed]
      simpa using SigningKey.sign_ne_nil P key message
    · refine ⟨_, message, ?_, ?_, P.ed25519.verify_sign key.seed message⟩
      · rw [signature, envelopeSignature, export_signatureB64, signed]
        exact Json.b64decode_encode _
      · rw [payload, envelopePayload_export, built]
  · apply (checkLwe_pass_iff P copy).mp
    rw [lwe]
    exact checkLwe_export P honest
  · apply (Api.clean_iff_checkPii P copy).mpr
    rw [pii]
    exact checkPii_export P honest

/-- Copies are readable as records are answerable under the prover's key. -/
theorem readable_iff_answerable : Readable P copy ↔ Answerable P (.str (key.publicKeyB64 P)) copy := by
  have installed : (Json.str (key.publicKeyB64 P)).truthy = true := by
    simpa using SigningKey.publicKeyB64_ne_nil P key
  have decodes : ∃ raw, (Json.str (key.publicKeyB64 P)).b64decode = .ok raw ∧ raw.length = 32 :=
    ⟨_, b64decode_publicKeyB64 P key, P.ed25519.publicKey_length key.seed⟩
  constructor
  · rintro ⟨linked, chainHash, lweParams⟩
    exact ⟨(linkable_iff P copy).mpr linked,
      fun verifiable => chainHash verifiable.present verifiable.signature,
      (asDict_orElse_iff _).mp lweParams⟩
  · rintro ⟨linkable, chainHash, lweParams⟩
    exact ⟨(linkable_iff P copy).mp linkable,
      fun present signature => chainHash ⟨installed, present, decodes, signature⟩,
      (asDict_orElse_iff _).mpr lweParams⟩

/-- A verifier that holds the key comes to a report exactly on readable copies. -/
theorem answers_iff_readable {verifier : ExternalVerifier}
    (installed : verifier.pubkey = .str (key.publicKeyB64 P)) :
    (∃ report, (verifyEnvelope P verifier copy).1 = .ok report) ↔ Readable P copy := by
  rw [answers_iff_answerable, installed, readable_iff_answerable]

end Copy

/-! ## What a verified copy attests -/

/-- Payloads that end in digests of one length agree in these, and then in what
stands before. -/
theorem chain_of_payloadText {id id' binding binding' stamp stamp' chain chain' : PyStr}
    (chains : chain.length = chain'.length)
    (equal : payloadText id binding stamp chain = payloadText id' binding' stamp' chain') :
    chain = chain' ∧ id.length + binding.length + stamp.length =
      id'.length + binding'.length + stamp'.length := by
  unfold payloadText at equal
  have lengths := congrArg List.length equal
  simp only [List.length_append, List.length_cons] at lengths
  have regroup : ∀ a b c d : PyStr, a ++ separatorChar :: (b ++ separatorChar :: (c ++ separatorChar :: d))
      = (a ++ separatorChar :: (b ++ separatorChar :: (c ++ [separatorChar]))) ++ d := by
    intro a b c d
    simp
  rw [regroup id binding stamp chain, regroup id' binding' stamp' chain'] at equal
  exact ⟨(List.append_inj' equal chains).2, by omega⟩

/-- Links of one text agree in predecessor and binding, if what stands after the
predecessor has one length. -/
theorem prev_of_linkText {prev prev' id id' binding binding' stamp stamp' : PyStr}
    (bindings : binding.length = binding'.length)
    (rests : id.length + binding.length + stamp.length = id'.length + binding'.length + stamp'.length)
    (equal : linkText prev binding id stamp = linkText prev' binding' id' stamp') :
    prev = prev' ∧ binding = binding' := by
  unfold linkText at equal
  have lengths := congrArg List.length equal
  simp only [List.length_append] at lengths
  have heads := List.append_inj equal (by omega)
  exact ⟨heads.1, (List.append_inj heads.2 bindings).1⟩

section Bytes

variable {P} {id id' stamp stamp' : Json} {binding binding' chain chain' : PyStr} {payload preimage : Bytes}
  (chains : chain.length = chain'.length)
  (signed : signingPayload P id (.str binding) stamp (.str chain) = .ok payload)
  (signed' : signingPayload P id' (.str binding') stamp' (.str chain') = .ok payload)
include chains signed signed'

/-- One payload, hence one chain hash. -/
theorem chain_of_signingPayload : chain = chain' := by
  rcases (signingPayload_eq_ok_iff ..).mp signed with ⟨_, _, _, _, same, same', text⟩
  cases same
  cases same'
  rcases (signingPayload_eq_ok_iff ..).mp signed' with ⟨_, _, _, _, same, same', text'⟩
  cases same
  cases same'
  exact (chain_of_payloadText chains (PyStr.utf8_injective text text')).1

/-- The payload bounds the id and the timestamp, so that one preimage has one
predecessor in it. -/
theorem prev_of_signed {prev : Json} {prev' : PyStr} (bindings : binding.length = binding'.length)
    (linked : linkPreimage P prev (.str binding) id stamp = .ok preimage)
    (linked' : linkPreimage P (.str prev') (.str binding') id' stamp' = .ok preimage) :
    prev = .str prev' ∧ binding = binding' := by
  rcases (signingPayload_eq_ok_iff ..).mp signed with ⟨idText, _, _, rfl, same, same', text⟩
  cases same
  cases same'
  rcases (signingPayload_eq_ok_iff ..).mp signed' with ⟨idText', _, _, rfl, same, same', text'⟩
  cases same
  cases same'
  have rests := (chain_of_payloadText chains (PyStr.utf8_injective text text')).2
  rcases (linkPreimage_eq_ok_iff ..).mp linked with ⟨_, _, _, rfl, same, same', linkedText⟩
  cases same
  cases same'
  rcases (linkPreimage_eq_ok_iff ..).mp linked' with ⟨_, _, _, same, same', same'', linkedText'⟩
  cases same
  cases same'
  cases same''
  rcases prev_of_linkText bindings rests (PyStr.utf8_injective linkedText linkedText') with
    ⟨prevs, sameBinding⟩
  exact ⟨congrArg Json.str prevs, sameBinding⟩

end Bytes

/-- A verified copy is attested by a record of the ledger that fits. -/
theorem attests_of_verified {L : Type} {calls : LedgerCalls L} {store : CommitmentStore L}
    {adds : List AddCall} {copy : Dict} (genesis : store.head = GENESIS_HASH)
    (collisionFree : CollisionFree P calls store adds [copy])
    (unforgeable : Unforgeable P calls store adds [copy]) {verifier after : ExternalVerifier}
    {report : Report} (installed : verifier.pubkey = .str (store.signingKey.publicKeyB64 P))
    (ran : verifyEnvelope P verifier copy = (.ok report, after)) (positive : report.verified = true) :
    ∃ own ∈ (appended P calls store adds).1,
      (∀ expected, verifier.expectedPrev = some expected -> own.prevChainHash = expected) ∧
        Attests P store.signingKey copy own := by
  have member : copy ∈ [copy] := List.mem_singleton_self copy
  rcases fields_of_verified P ran positive with ⟨passes, binding, bindingEq, bindingDigest, blobs⟩
  rcases (linkPasses_iff P _ copy).mp passes with ⟨⟨preimage, linked, chainEq⟩, follows⟩
  rcases signed_of_verified P unforgeable member installed ran positive with
    ⟨payload, payloadBuilt, own, ownMember, ownPayload⟩
  rcases link_of_record P genesis ownMember with ⟨link, linkMember, carried, honestLink⟩
  rcases honestLink.carried own carried with ⟨honest, -, digestEq, ownLinked⟩
  have payloads := payloadBuilt.trans ownPayload.symm
  unfold envelopePayload at payloadBuilt
  rw [bindingEq, chainEq] at payloadBuilt
  have lengths := (isDigest_sha3Hex P preimage).length.trans (honest.chainHash_isDigest P).length.symm
  have chains := chain_of_signingPayload lengths payloadBuilt ownPayload
  -- one chain hash, hence one preimage
  have preimages : preimage = link.preimage := by
    apply sha3Hex_injective P collisionFree (Or.inr (Or.inr ⟨copy, member, Or.inl linked⟩))
      (Or.inl ⟨link, linkMember, rfl⟩)
    rw [chains, digestEq, honestLink.hashed]
  subst preimages
  have links := linked.trans ownLinked.symm
  unfold envelopeLink at linked
  rw [bindingEq] at linked
  rcases prev_of_signed lengths payloadBuilt ownPayload
    (bindingDigest.length.trans (honest.bindingHash_isDigest P).length.symm) linked ownLinked with
    ⟨prevGet, bindings⟩
  rcases verifyEnvelope_report P ran with ⟨_, _, _, lwe, -, -, -, profile, -, verdict⟩
  rcases verdict.mp positive with ⟨-, -, -, lwePass, piiPass⟩
  rcases signature_of_verified P installed ran positive with ⟨signature, signed, signaturePass⟩
  refine ⟨own, ownMember, ?_, ⟨?_, ?_, ?_, ?_, ?_, ?_, ?_, ?_, ?_⟩⟩
  · intro expected expects
    have named := follows expected expects
    rw [prevGet] at named
    exact Json.str.inj named
  · rw [bindingEq, bindings]
  · exact prevGet
  · rw [chainEq, chains]
  · rw [links, envelopeLink_export]
  · rw [payloads, envelopePayload_export]
  · intro published
    rcases blobs published with ⟨blob, decoded, hashed⟩
    exact ⟨blob, decoded,
      sameBlob_of_bindingHash P collisionFree member ownMember honest decoded (bindings ▸ hashed)⟩
  · exact ⟨((checkSignature_pass_iff P _ copy).mp ⟨signature, signed, signaturePass⟩).2.1,
      checkSignature_pass_key P signed signaturePass⟩
  · exact (checkLwe_pass_iff P copy).mp ⟨lwe, profile, lwePass⟩
  · exact (Api.clean_iff_checkPii P copy).mpr piiPass

/-! ## The law of detection -/

/-- Where the honest stream leads, the next record is at its place. -/
theorem atPlace_of_heard {key : SigningKey} {heard rest : List CommitmentRecord}
    {record : CommitmentRecord} {before : PyStr} (honest : ∀ own ∈ heard, HonestRecord P key own)
    (linked : LinkChain.Linked CommitmentRecord.prevChainHash CommitmentRecord.chainHash before
      (heard ++ record :: rest)) :
    AtPlace P key record (verifyAll P (.new (.str (key.publicKeyB64 P)))
      (heard.map CommitmentRecord.toExportDict)).2 := by
  rcases (LinkChain.linked_append ..).mp linked with ⟨earlier, later⟩
  constructor
  · unfold verifyAll
    refine Machine.invariant_run
      (fun verifier : ExternalVerifier => verifier.pubkey = .str (key.publicKeyB64 P)) ?_ rfl
    intro verifier envelope _ installed
    exact (pubkey_verifyEnvelope P verifier envelope).trans installed
  · rcases verifyAll_exports P heard honest earlier
      (rfl : (ExternalVerifier.new (.str (key.publicKeyB64 P))).pubkey = _) (Or.inl rfl) with
      ⟨-, -, moved⟩
    rw [moved]
    split
    · exact Or.inl rfl
    · exact Or.inr (congrArg some later.1.symm)

/-- An edited copy is reported as not verified exactly if it can be read and no
record that fits its place attests it.  An edit of the verdict alone is never
reported. -/
theorem edit_detected_iff {L : Type} (calls : LedgerCalls L) (store : CommitmentStore L)
    (adds : List AddCall) (genesis : store.head = GENESIS_HASH) {record : CommitmentRecord}
    (member : record ∈ (appended P calls store adds).1) {verifier : ExternalVerifier}
    (place : AtPlace P store.signingKey record verifier) (copy : Dict)
    (collisionFree : CollisionFree P calls store adds [copy])
    (unforgeable : Unforgeable P calls store adds [copy]) :
    (Flagged P verifier copy ↔ Readable P copy ∧ ∀ own ∈ (appended P calls store adds).1,
      (verifier.expectedPrev ≠ none -> own.prevChainHash = record.prevChainHash) ->
        ¬Attests P store.signingKey copy own) ∧
    (SameOutside copy record.toExportDict -> ¬Flagged P verifier copy) := by
  have honest : ∀ own ∈ (appended P calls store adds).1, HonestRecord P store.signingKey own := by
    intro own ownMember
    rcases link_of_record P genesis ownMember with ⟨link, -, carried, honestLink⟩
    exact (honestLink.carried own carried).1
  refine ⟨⟨?_, ?_⟩, ?_⟩
  · rintro ⟨report, answered, negative⟩
    refine ⟨(answers_iff_readable place.installed).mp ⟨report, answered⟩, ?_⟩
    intro own ownMember fits attests
    exact not_flagged_of_attests (honest own ownMember) attests place.installed
      ((place.fits_iff own).mpr fits) ⟨report, answered, negative⟩
  · rintro ⟨readable, unattested⟩
    rcases (answers_iff_readable place.installed).mpr readable with ⟨report, answered⟩
    refine ⟨report, answered, ?_⟩
    cases verdict : report.verified with
    | false => rfl
    | true =>
        have ran : verifyEnvelope P verifier copy = (.ok report, (verifyEnvelope P verifier copy).2) := by
          rw [← answered]
        rcases attests_of_verified P genesis collisionFree unforgeable place.installed ran verdict with
          ⟨own, ownMember, fits, attests⟩
        exact absurd attests (unattested own ownMember ((place.fits_iff own).mp fits))
  · intro same
    exact not_flagged_of_attests (honest record member)
      (attests_of_sameOutside (honest record member) same) place.installed
      ((place.fits_iff record).mpr fun _ => rfl)

/-! ## A quarantined payment, published as released -/

/-- A record of the sample ledger, and what a copy of its export needs. -/
theorem sample_ledger :
    ∃ record ∈ (appended samplePlatform sampleCalls sampleStore sampleAdds).1,
      HonestRecord samplePlatform sampleStore.signingKey record ∧
      ∀ copy, SameOutside copy record.toExportDict ->
        CollisionFree samplePlatform sampleCalls sampleStore sampleAdds [copy] ∧
          Unforgeable samplePlatform sampleCalls sampleStore sampleAdds [copy] := by
  rcases ledger_sampleAdds with ⟨_, first, record, _, -, added, -⟩
  have member : record ∈ (appended samplePlatform sampleCalls sampleStore sampleAdds).1 := by
    rw [added]
    exact List.mem_cons_of_mem _ (List.mem_singleton_self record)
  refine ⟨record, member, (linked_appended samplePlatform sampleStore sampleCalls regular_sampleAdds).2 record member,
    ?_⟩
  intro copy same
  rcases reads_of_sameOutside (P := samplePlatform) same with ⟨link, payload, blob, -, -, -⟩
  constructor
  · apply collisionFree_sampleAdds
    intro envelope here
    rw [List.mem_singleton.mp here]
    exact ⟨_, member, link, blob⟩
  · intro envelope here signature signed _ payloadBuilt _
    rw [List.mem_singleton.mp here, payload, envelopePayload_export] at payloadBuilt
    exact ⟨_, member, payloadBuilt⟩

/-- The verdict an attacker puts in the place of the prover's. -/
def swapped : Status -> Status
  | .verified => .quarantined
  | _ => .verified

/-- The envelope of a record with the other verdict in it. -/
def relabelled (record : CommitmentRecord) : Dict :=
  Dict.set record.toExportDict "status" (Json.text (swapped record.status).text)

theorem status_relabelled (record : CommitmentRecord) :
    Dict.find (relabelled record) "status" ≠ Dict.find record.toExportDict "status" := by
  have published : Dict.find record.toExportDict "status" = some (Json.text record.status.text) := by
    simp [CommitmentRecord.toExportDict]
  unfold relabelled
  rw [Dict.find_set, if_pos rfl, published]
  intro equal
  have texts := Json.str.inj (Option.some.inj equal)
  cases status : record.status <;> rw [status] at texts <;> exact absurd texts (by decide)

theorem sameOutside_relabelled (record : CommitmentRecord) :
    SameOutside (relabelled record) record.toExportDict := by
  intro field outside
  unfold relabelled
  rw [Dict.find_set, if_neg]
  rintro rfl
  exact outside (by decide)

theorem edit_detected_iff_sample :
    ∃ record ∈ (appended samplePlatform sampleCalls sampleStore sampleAdds).1,
      ¬Flagged samplePlatform (.new (.str (sampleStore.signingKey.publicKeyB64 samplePlatform)))
        (relabelled record) := by
  rcases sample_ledger with ⟨record, member, -, idealised⟩
  have same := sameOutside_relabelled record
  exact ⟨record, member, (edit_detected_iff samplePlatform sampleCalls sampleStore sampleAdds
    head_sampleStore member ⟨rfl, Or.inl rfl⟩ (relabelled record) (idealised _ same).1
    (idealised _ same).2).2 same⟩

/-- With the status of a record rewritten, its envelope is verified as before. -/
theorem rewritten_verdict_verified :
    ¬∀ record ∈ (appended samplePlatform sampleCalls sampleStore sampleAdds).1, ∀ verifier copy,
      AtPlace samplePlatform sampleStore.signingKey record verifier ->
      CollisionFree samplePlatform sampleCalls sampleStore sampleAdds [copy] ->
      Unforgeable samplePlatform sampleCalls sampleStore sampleAdds [copy] ->
      (∃ field ∈ EDITABLE_FIELDS, Dict.find copy field ≠ Dict.find record.toExportDict field) ->
      Flagged samplePlatform verifier copy := by
  intro detected
  rcases sample_ledger with ⟨record, member, honest, idealised⟩
  have same := sameOutside_relabelled record
  have flagged := detected record member (.new (.str (sampleStore.signingKey.publicKeyB64 samplePlatform)))
    (relabelled record)
    ⟨rfl, Or.inl rfl⟩ (idealised _ same).1 (idealised _ same).2
    ⟨"status", by decide, status_relabelled record⟩
  exact not_flagged_of_attests honest (attests_of_sameOutside honest same) rfl
    (fun _ waiting => by cases waiting) flagged

end Verify
end ZeroAudit
