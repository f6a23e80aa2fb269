import ZeroAudit.Chain.Ledger
import ZeroAudit.Verifier.Counters

namespace ZeroAudit
namespace Verify

open Foundation Signature Commitment

/-!
# Honest records pass, one after the other

The export of an honest record passes four of the checks in every verifier
that holds the prover's key, and the fifth in every verifier that expects its
predecessor or nothing.  A stream of such exports that is linked from the
expected hash is therefore verified from end to end, and leaves the verifier
at its tip.
-/

variable (P : Platform) {key : SigningKey} {record : CommitmentRecord}

/-! ## Reading an export -/

section Fields

variable (record : CommitmentRecord) (default : Json)

@[simp] theorem export_txnId :
    Dict.get record.toExportDict "txn_id" default = record.txnId := by
  simp [CommitmentRecord.toExportDict, Dict.get]

@[simp] theorem export_commitmentB64 :
    Dict.get record.toExportDict "commitment_b64" default = .str record.commitmentB64 := by
  simp [CommitmentRecord.toExportDict, Dict.get]

@[simp] theorem export_bindingHash :
    Dict.get record.toExportDict "binding_hash" default = .str record.bindingHash := by
  simp [CommitmentRecord.toExportDict, Dict.get]

@[simp] theorem export_prevChainHash :
    Dict.get record.toExportDict "prev_chain_hash" default = .str record.prevChainHash := by
  simp [CommitmentRecord.toExportDict, Dict.get]

@[simp] theorem export_chainHash :
    Dict.get record.toExportDict "chain_hash" default = .str record.chainHash := by
  simp [CommitmentRecord.toExportDict, Dict.get]

@[simp] theorem export_signatureB64 :
    Dict.get record.toExportDict "signature_b64" default = .str record.signatureB64 := by
  simp [CommitmentRecord.toExportDict, Dict.get]

@[simp] theorem export_lweParams :
    Dict.get record.toExportDict "lwe_params" default = record.lweParams := by
  simp [CommitmentRecord.toExportDict, Dict.get]

@[simp] theorem export_timestampNs :
    Dict.get record.toExportDict "timestamp_ns" default = .int record.timestampNs := by
  simp [CommitmentRecord.toExportDict, Dict.get]

@[simp] theorem export_piiBytes :
    Dict.get record.toExportDict "pii_bytes" default = .int record.piiBytes := by
  simp [CommitmentRecord.toExportDict, Dict.get]

end Fields

/-! ## The checks on an export -/

theorem envelopeLink_export (record : CommitmentRecord) :
    envelopeLink P record.toExportDict =
      linkPreimage P (.str record.prevChainHash) (.str record.bindingHash) record.txnId
        (.int record.timestampNs) := by
  simp only [envelopeLink, export_prevChainHash, export_bindingHash, export_txnId, export_timestampNs]

theorem envelopePayload_export (record : CommitmentRecord) :
    envelopePayload P record.toExportDict =
      signingPayload P record.txnId (.str record.bindingHash) (.int record.timestampNs)
        (.str record.chainHash) := by
  simp only [envelopePayload, export_txnId, export_bindingHash, export_timestampNs, export_chainHash]

theorem checkSignature_export (honest : HonestRecord P key record) :
    ∃ finding, checkSignature P (.str (key.publicKeyB64 P)) record.toExportDict = .ok finding ∧
      finding.status = .pass := by
  rcases honest.signature with ⟨payload, built, signed⟩
  have keyText := SigningKey.publicKeyB64_ne_nil P key
  have signatureText : record.signatureB64 ≠ [] := by
    rw [signed]
    exact SigningKey.sign_ne_nil P key payload
  rw [checkSignature_pass_iff]
  refine ⟨by simpa using keyText, by simpa using signatureText, ?_⟩
  have accepted := verifySignature_sign P key built
  rw [← signed] at accepted
  simpa using accepted

theorem checkBinding_export (honest : HonestRecord P key record) :
    ∃ finding, checkBinding P record.toExportDict = .ok finding ∧ finding.status = .pass := by
  rcases honest.commitment with ⟨blob, nonempty, encoded, hashed⟩
  have published : record.commitmentB64 ≠ [] := by
    rw [encoded]
    exact Base64.encode_ne_nil nonempty
  have truthy : (Json.str record.commitmentB64).truthy = true := by simpa using published
  have decoded : (Json.str record.commitmentB64).b64decode = .ok blob := by
    rw [encoded]
    exact Json.b64decode_encode blob
  unfold checkBinding
  simp only [export_commitmentB64, export_bindingHash, truthy, if_true, decoded]
  exact ⟨_, rfl, by simp [note, hashed]⟩

/-- The link of an export passes where its predecessor, or nothing, is expected. -/
theorem linkPasses_export (honest : HonestRecord P key record) {expectedPrev : Option PyStr}
    (expects : expectedPrev = none ∨ expectedPrev = some record.prevChainHash) :
    LinkPasses P expectedPrev record.toExportDict := by
  rcases honest.link with ⟨preimage, linked, chain⟩
  rw [linkPasses_iff, envelopeLink_export]
  refine ⟨⟨preimage, linked, ?_⟩, ?_⟩
  · rw [export_chainHash, chain]
  · rintro expected rfl
    rcases expects with none | named
    · cases none
    · cases named
      exact export_prevChainHash record _

theorem checkLwe_export (honest : HonestRecord P key record) :
    ∃ finding, checkLwe P record.toExportDict = .ok finding ∧ finding.status = .pass := by
  unfold checkLwe
  rw [export_lweParams, honest.lweParams]
  refine ⟨_, rfl, ?_⟩
  rw [note_status]
  decide

theorem checkPii_export (honest : HonestRecord P key record) :
    (checkPii P record.toExportDict).status = .pass := by
  unfold checkPii
  rw [note_status, export_piiBytes, honest.piiBytes]
  simp only [Dict.has_eq_any, CommitmentRecord.toExportDict, List.map_cons, List.map_nil]
  decide +kernel

/-! ## A stream of exports -/

/-- All five findings passed, and the report says so. -/
def AllPass (outcome : Except PyError Report) : Prop :=
  ∃ report, outcome = .ok report ∧ report.verified = true ∧
    report.checks.map Finding.check =
      [.signature, .bindingHash, .chainLink, .lweParams, .piiAssertion] ∧
    ∀ finding ∈ report.checks, finding.status = .pass

/-- One honest record whose predecessor is expected. -/
theorem verifyEnvelope_export {verifier : ExternalVerifier} (honest : HonestRecord P key record)
    (installed : verifier.pubkey = .str (key.publicKeyB64 P))
    (expects : verifier.expectedPrev = none ∨ verifier.expectedPrev = some record.prevChainHash) :
    AllPass (verifyEnvelope P verifier record.toExportDict).1 ∧
      (verifyEnvelope P verifier record.toExportDict).2.pubkey = verifier.pubkey ∧
      (verifyEnvelope P verifier record.toExportDict).2.expectedPrev = some record.chainHash ∧
      (verifyEnvelope P verifier record.toExportDict).2.stats .chainBroken =
        verifier.stats .chainBroken := by
  rcases checkSignature_export P honest with ⟨signature, signed, signaturePass⟩
  rcases checkBinding_export P honest with ⟨binding, bound, bindingPass⟩
  have passes := linkPasses_export P honest expects
  rcases passes with ⟨link, linked, linkPass⟩
  rcases checkLwe_export P honest with ⟨lwe, profile, lwePass⟩
  have piiPass := checkPii_export P honest
  rw [← installed] at signed
  rcases ran : verifyEnvelope P verifier record.toExportDict with ⟨outcome, after⟩
  have answered : ∃ report, outcome = .ok report := by
    have some := (verifyEnvelope_eq_ok_iff P).mpr
      ⟨signature, binding, link, lwe, signed, bound, linked, profile, rfl⟩
    rw [ran] at some
    exact ⟨_, (Prod.mk.inj some).1⟩
  rcases answered with ⟨report, rfl⟩
  rcases verifyEnvelope_report P ran with
    ⟨signature', binding', link', lwe', signed', bound', linked', profile', checks, verdict⟩
  cases signed.symm.trans signed'
  cases bound.symm.trans bound'
  cases linked.symm.trans linked'
  cases profile.symm.trans profile'
  have key := pubkey_verifyEnvelope P verifier record.toExportDict
  rw [ran] at key
  refine ⟨⟨report, rfl, verdict.mpr ⟨?_, bindingPass, linkPass, lwePass, piiPass⟩, ?_, ?_⟩, key,
    (expectedPrev_of_linkPasses P ran ⟨link, linked, linkPass⟩ (export_chainHash record _)).1, ?_⟩
  · rw [signaturePass]
    decide
  · rw [checks]
    simp only [List.map_cons, List.map_nil, (checkSignature_owned P signed).named,
      (checkBinding_owned P bound).named, (checkLink_owned P linked).named,
      (checkLwe_owned P profile).named, (checkPii_owned P record.toExportDict).named]
  · rw [checks]
    simp [signaturePass, bindingPass, linkPass, lwePass, piiPass]
  · have counter := (checkLink_counter P linked).2
    rw [linkPass] at counter
    rw [stats_of_report P ran, checks]
    simp only [List.map_cons, List.map_nil, List.sum_cons, List.sum_nil,
      (checkSignature_owned P signed).moves_eq_zero
        (by decide : StatKey.check .chainBroken ≠ some .signature),
      (checkBinding_owned P bound).moves_eq_zero
        (by decide : StatKey.check .chainBroken ≠ some .bindingHash),
      (checkLwe_owned P profile).moves_eq_zero
        (by decide : StatKey.check .chainBroken ≠ some .lweParams),
      (checkPii_owned P record.toExportDict).moves_eq_zero
        (by decide : StatKey.check .chainBroken ≠ some .piiAssertion)]
    cases report.verified <;> simp [Finding.moves, counter, verdictMoves]

/-- A linked stream of honest exports is verified from end to end. -/
theorem verifyAll_exports (records : List CommitmentRecord)
    (honest : ∀ record ∈ records, HonestRecord P key record) {before : PyStr}
    (linked : LinkChain.Linked CommitmentRecord.prevChainHash CommitmentRecord.chainHash before records)
    {verifier : ExternalVerifier} (installed : verifier.pubkey = .str (key.publicKeyB64 P))
    (expects : verifier.expectedPrev = none ∨ verifier.expectedPrev = some before) :
    (∀ outcome ∈ (verifyAll P verifier (records.map CommitmentRecord.toExportDict)).1,
      AllPass outcome) ∧
    (verifyAll P verifier (records.map CommitmentRecord.toExportDict)).2.stats .chainBroken =
      verifier.stats .chainBroken ∧
    (verifyAll P verifier (records.map CommitmentRecord.toExportDict)).2.expectedPrev =
      if records = [] then verifier.expectedPrev
      else some (LinkChain.tip CommitmentRecord.chainHash before records) := by
  induction records generalizing verifier before with
  | nil => exact ⟨fun _ member => (List.not_mem_nil member).elim, rfl, rfl⟩
  | cons record rest inductionHypothesis =>
      rw [← linked.1] at expects
      rcases verifyEnvelope_export P (honest record List.mem_cons_self) installed expects with
        ⟨pass, samekey, moved, unbroken⟩
      rcases inductionHypothesis (fun other member => honest other (List.mem_cons_of_mem _ member))
        linked.2 (samekey.trans installed) (Or.inr moved) with ⟨laterPass, laterUnbroken, laterMoved⟩
      unfold verifyAll at *
      rw [List.map_cons, Machine.run_cons]
      refine ⟨?_, laterUnbroken.trans unbroken, ?_⟩
      · rw [List.forall_mem_cons]
        exact ⟨pass, laterPass⟩
      · rw [laterMoved, if_neg (List.cons_ne_nil record rest)]
        cases rest with
        | nil => exact moved
        | cons next others => rfl

end Verify
end ZeroAudit
