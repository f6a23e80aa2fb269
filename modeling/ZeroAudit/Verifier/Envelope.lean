import ZeroAudit.Foundation.Machine
import ZeroAudit.Verifier.Verify

namespace ZeroAudit
namespace Verify

open Foundation Signature Commitment

/-!
# What one envelope does to a verifier

Everything later proved about runs of the verifier goes through the lemmas of
this file.  A report exists exactly when the four checks that may raise do
not.  The tracked chain moves exactly when the link check was reached and
passed, whether or not a report comes out.  What a passed check says about the
record is stated once for each check.
-/

variable (P : Platform)

/-! ## The bytes an envelope stands for -/

section Fields

variable (record : Dict)

/-- The payload its signature has to cover. -/
def envelopePayload : Except PyError Bytes :=
  signingPayload P (Dict.get record "txn_id" (Json.text ""))
    (Dict.get record "binding_hash" (Json.text "")) (Dict.get record "timestamp_ns" (.int 0))
    (Dict.get record "chain_hash" (Json.text ""))

/-- The preimage of its link. -/
def envelopeLink : Except PyError Bytes :=
  linkPreimage P (Dict.get record "prev_chain_hash" (Json.text ""))
    (Dict.get record "binding_hash" (Json.text "")) (Dict.get record "txn_id" (Json.text ""))
    (Dict.get record "timestamp_ns" (.int 0))

/-- The published commitment. -/
def envelopeBlob : Except PyError Bytes :=
  (Dict.get record "commitment_b64" (Json.text "")).b64decode

/-- The decoded signature. -/
def envelopeSignature : Except PyError Bytes :=
  (Dict.get record "signature_b64" (Json.text "")).b64decode

end Fields

/-! ## Inversion -/

theorem stage_eq_ok_iff {attempt : Except PyError Finding} {verifier after : ExternalVerifier}
    {next : Finding -> ExternalVerifier -> Except PyError Report × ExternalVerifier}
    {report : Report} :
    stage attempt verifier next = (.ok report, after) ↔
      ∃ finding, attempt = .ok finding ∧ next finding (verifier.record finding) = (.ok report, after) := by
  unfold stage
  cases attempt with
  | ok finding => simp
  | error error => simp

/-- The state in which the verdict is drawn. -/
def afterChecks (verifier : ExternalVerifier) (record : Dict) (signature binding link lwe : Finding) :
    ExternalVerifier :=
  (((((verifier.record signature).record binding).track record link).record link).record lwe).record
    (checkPii P record)

@[simp] theorem pubkey_record (verifier : ExternalVerifier) (finding : Finding) :
    (verifier.record finding).pubkey = verifier.pubkey := by
  unfold ExternalVerifier.record
  split <;> rfl

@[simp] theorem expectedPrev_record (verifier : ExternalVerifier) (finding : Finding) :
    (verifier.record finding).expectedPrev = verifier.expectedPrev := by
  unfold ExternalVerifier.record
  split <;> rfl

@[simp] theorem lastSeq_record (verifier : ExternalVerifier) (finding : Finding) :
    (verifier.record finding).lastSeq = verifier.lastSeq := by
  unfold ExternalVerifier.record
  split <;> rfl

@[simp] theorem pubkey_track (verifier : ExternalVerifier) (record : Dict) (link : Finding) :
    (verifier.track record link).pubkey = verifier.pubkey := by
  unfold ExternalVerifier.track
  split <;> rfl

@[simp] theorem stats_track (verifier : ExternalVerifier) (record : Dict) (link : Finding) :
    (verifier.track record link).stats = verifier.stats := by
  unfold ExternalVerifier.track
  split <;> rfl

theorem track_of_ne {verifier : ExternalVerifier} {record : Dict} {link : Finding}
    (broken : link.status ≠ .pass) : verifier.track record link = verifier := by
  unfold ExternalVerifier.track
  rw [if_neg broken]

theorem track_of_pass {verifier : ExternalVerifier} {record : Dict} {link : Finding}
    (pass : link.status = .pass) {chainHash : PyStr}
    (advertised : Dict.get record "chain_hash" (Json.text "") = .str chainHash) :
    verifier.track record link =
      { verifier with expectedPrev := some chainHash, lastSeq := Dict.get record "seq" .null } := by
  unfold ExternalVerifier.track
  rw [if_pos pass, advertised]

/-- A report comes out exactly when no check raises, and then it lists their
findings in order. -/
theorem verifyEnvelope_eq_ok_iff {verifier after : ExternalVerifier} {record : Dict}
    {report : Report} :
    verifyEnvelope P verifier record = (.ok report, after) ↔
      ∃ signature binding link lwe,
        checkSignature P verifier.pubkey record = .ok signature ∧ checkBinding P record = .ok binding ∧
        checkLink P verifier.expectedPrev record = .ok link ∧ checkLwe P record = .ok lwe ∧
        conclude record [signature, binding, link, lwe, checkPii P record]
          (afterChecks P verifier record signature binding link lwe) = (.ok report, after) := by
  unfold verifyEnvelope
  simp only [stage_eq_ok_iff, expectedPrev_record]
  constructor
  · rintro ⟨signature, signed, binding, bound, link, linked, lwe, profile, _, same, concluded⟩
    cases same
    rw [linked] at concluded
    exact ⟨signature, binding, link, lwe, signed, bound, linked, profile, concluded⟩
  · rintro ⟨signature, binding, link, lwe, signed, bound, linked, profile, concluded⟩
    refine ⟨signature, signed, binding, bound, link, linked, lwe, profile, _, rfl, ?_⟩
    rw [linked]
    exact concluded

/-- A verdict is positive exactly when no finding is a failure. -/
theorem conclude_verified {record : Dict} {checks : List Finding} {verifier after : ExternalVerifier}
    {report : Report} (concluded : conclude record checks verifier = (.ok report, after)) :
    report.checks = checks ∧ (report.verified = true ↔ ∀ finding ∈ checks, finding.status ≠ .fail) := by
  cases concluded
  refine ⟨rfl, ?_⟩
  simp only [Bool.not_eq_true', List.any_eq_false, decide_eq_true_eq]

theorem tracking_conclude {record : Dict} {checks : List Finding} {verifier after : ExternalVerifier}
    {report : Report} (concluded : conclude record checks verifier = (.ok report, after)) :
    after.pubkey = verifier.pubkey ∧ after.expectedPrev = verifier.expectedPrev ∧
      after.lastSeq = verifier.lastSeq := by
  cases concluded
  exact ⟨rfl, rfl, rfl⟩

/-! ## The tracked chain -/

/-- The link check of this record passes in a state that expects `expectedPrev`. -/
def LinkPasses (expectedPrev : Option PyStr) (record : Dict) : Prop :=
  ∃ link, checkLink P expectedPrev record = .ok link ∧ link.status = .pass

/-- The installed key survives every envelope, also one that raises. -/
theorem pubkey_verifyEnvelope (verifier : ExternalVerifier) (record : Dict) :
    (verifyEnvelope P verifier record).2.pubkey = verifier.pubkey := by
  unfold verifyEnvelope stage conclude
  cases checkSignature P verifier.pubkey record with
  | error error => rfl
  | ok signature =>
      cases checkBinding P record with
      | error error => simp
      | ok binding =>
          simp only [expectedPrev_record]
          cases checkLink P verifier.expectedPrev record with
          | error error => simp
          | ok link =>
              cases checkLwe P record with
              | error error => simp
              | ok lwe => simp

/-! ## What a passed check says -/

theorem note_status (check : Check) (ok : Bool) (detail : PyStr) (okKey failKey : StatKey) :
    (note check ok detail okKey failKey).status = .pass ↔ ok = true := by
  cases ok <;> simp [note]

theorem note_status_ne_skip (check : Check) (ok : Bool) (detail : PyStr) (okKey failKey : StatKey) :
    (note check ok detail okKey failKey).status ≠ .skip := by
  cases ok <;> simp [note]

/-- SIGNATURE passes exactly on a signature that verifies under an installed key. -/
theorem checkSignature_pass_iff (pubkey : Json) (record : Dict) :
    (∃ finding, checkSignature P pubkey record = .ok finding ∧ finding.status = .pass) ↔
      pubkey.truthy = true ∧ (Dict.get record "signature_b64" (Json.text "")).truthy = true ∧
        verifySignature P pubkey (Dict.get record "signature_b64" (Json.text ""))
          (Dict.get record "txn_id" (Json.text "")) (Dict.get record "binding_hash" (Json.text ""))
          (Dict.get record "timestamp_ns" (.int 0)) (Dict.get record "chain_hash" (Json.text "")) =
            .ok true := by
  unfold checkSignature
  by_cases installed : pubkey.truthy = true
  · by_cases signed : (Dict.get record "signature_b64" (Json.text "")).truthy = true
    · simp only [installed, signed, Bool.not_true, Bool.false_eq_true, if_false, true_and,
        bind_eq_ok_iff]
      constructor
      · rintro ⟨finding, ⟨ok, verified, same⟩, pass⟩
        cases same
        rw [note_status] at pass
        rw [verified, pass]
      · intro verified
        exact ⟨_, ⟨true, verified, rfl⟩, rfl⟩
    · simp [installed, signed, note]
  · simp [installed]

/-- Under a prover's key, a passed SIGNATURE is a verification of the payload. -/
theorem checkSignature_pass_key {key : SigningKey} {record : Dict} {finding : Finding}
    (checked : checkSignature P (.str (key.publicKeyB64 P)) record = .ok finding)
    (pass : finding.status = .pass) :
    ∃ signature payload, envelopeSignature record = .ok signature ∧
      envelopePayload P record = .ok payload ∧
      P.ed25519.verify (key.publicBytes P) signature payload = true := by
  have verified := ((checkSignature_pass_iff P _ record).mp ⟨finding, checked, pass⟩).2.2
  rcases (verifySignature_eq_true_iff ..).mp verified with
    ⟨raw, signature, payload, decoded, -, signatureBytes, built, accepted⟩
  rw [b64decode_publicKeyB64] at decoded
  cases decoded
  exact ⟨signature, payload, signatureBytes, built, accepted⟩

/-- SIGNATURE is skipped exactly while no key is installed. -/
theorem checkSignature_skip_iff {pubkey : Json} {record : Dict} {finding : Finding}
    (checked : checkSignature P pubkey record = .ok finding) :
    finding.status = .skip ↔ pubkey.truthy = false := by
  unfold checkSignature at checked
  cases key : pubkey.truthy with
  | false =>
      rw [key] at checked
      cases checked
      simp
  | true =>
      simp only [key, Bool.not_true, Bool.false_eq_true, if_false] at checked
      simp only [Bool.true_eq_false, iff_false]
      split at checked
      · cases checked
        exact note_status_ne_skip _ _ _ _ _
      · rcases bind_eq_ok_iff.mp checked with ⟨ok, -, same⟩
        cases same
        exact note_status_ne_skip _ _ _ _ _

theorem inHexDigits_char (c : PyChar) : inHexDigits (.str [c]) = .ok (isHexDigit c) := by
  unfold inHexDigits
  apply congrArg Except.ok
  rw [Bool.eq_iff_iff, decide_eq_true_iff, List.singleton_infix_iff]
  cases c with
  | scalar c => simp [isHexDigit, PyStr.ofString]
  | surrogate index => simp [isHexDigit, PyStr.ofString]

theorem allHexDigits_chars (text : PyStr) :
    allHexDigits (text.map fun c => .str [c]) = .ok (text.all isHexDigit) := by
  induction text with
  | nil => rfl
  | cons c rest inductionHypothesis =>
      simp only [List.map_cons, allHexDigits, inHexDigits_char, List.all_cons, bind, Except.bind]
      cases isHexDigit c with
      | false => rfl
      | true => simpa using inductionHypothesis

/-- The shape test on a string. -/
theorem hexShaped_str_iff (text : PyStr) :
    hexShaped (.str text) = .ok true ↔ text.length = 64 ∧ ∀ c ∈ text, isHexDigit c = true := by
  unfold hexShaped
  simp only [List.length_map, allHexDigits_chars]
  split
  · next sixtyFour => simp [sixtyFour]
  · next other => simp [other]

/-- BINDING_HASH passes on the digest of the decoded commitment, or by shape
where no commitment is published. -/
theorem checkBinding_pass {record : Dict} {finding : Finding}
    (checked : checkBinding P record = .ok finding) (pass : finding.status = .pass) :
    (∃ blob, (Dict.get record "commitment_b64" (Json.text "")).truthy = true ∧
      envelopeBlob record = .ok blob ∧
      Dict.get record "binding_hash" (Json.text "") = .str (P.sha3Hex blob)) ∨
    ((Dict.get record "commitment_b64" (Json.text "")).truthy = false ∧
      hexShaped (Dict.get record "binding_hash" (Json.text "")) = .ok true) := by
  unfold checkBinding at checked
  cases published : (Dict.get record "commitment_b64" (Json.text "")).truthy with
  | true =>
      simp only [published, if_true] at checked
      cases decoded : (Dict.get record "commitment_b64" (Json.text "")).b64decode with
      | ok blob =>
          rw [decoded] at checked
          cases checked
          rw [note_status] at pass
          exact Or.inl ⟨blob, rfl, decoded, (Json.eqStr_eq_true_iff _ _).mp pass⟩
      | error error =>
          rw [decoded] at checked
          cases checked
          rw [note_status] at pass
          cases pass
  | false =>
      simp only [published, Bool.false_eq_true, if_false] at checked
      rcases bind_eq_ok_iff.mp checked with ⟨ok, shaped, same⟩
      cases same
      cases ok with
      | false => cases pass
      | true => exact Or.inr ⟨rfl, shaped⟩

/-- CHAIN_LINK passes exactly when the advertised hash is the digest of the
link, and the predecessor is the one the state expects, if it expects one. -/
theorem linkPasses_iff (expectedPrev : Option PyStr) (record : Dict) :
    LinkPasses P expectedPrev record ↔
      (∃ preimage, envelopeLink P record = .ok preimage ∧
        Dict.get record "chain_hash" (Json.text "") = .str (P.sha3Hex preimage)) ∧
      ∀ expected, expectedPrev = some expected ->
        Dict.get record "prev_chain_hash" (Json.text "") = .str expected := by
  unfold LinkPasses checkLink computeChainHash envelopeLink
  simp only [bind_eq_ok_iff]
  constructor
  · rintro ⟨link, ⟨_, ⟨preimage, built, same⟩, checked⟩, pass⟩
    cases same
    split at checked
    · next recomputes =>
        refine ⟨⟨preimage, built, (Json.eqStr_eq_true_iff _ _).mp recomputes⟩, ?_⟩
        intro expected waiting
        subst waiting
        simp only at checked
        split at checked
        · next named => exact (Json.eqStr_eq_true_iff _ _).mp named
        · cases checked
          rw [note_status] at pass
          cases pass
    · cases checked
      rw [note_status] at pass
      cases pass
  · rintro ⟨⟨preimage, built, advertised⟩, named⟩
    have recomputes := (Json.eqStr_eq_true_iff _ _).mpr advertised
    refine ⟨note .chainLink true (PyStr.ofString "chain_hash recomputes correctly")
      .chainOk .chainBroken, ⟨_, ⟨preimage, built, rfl⟩, ?_⟩, rfl⟩
    rw [if_pos recomputes]
    cases expectedPrev with
    | none => rfl
    | some expected =>
        have follows := (Json.eqStr_eq_true_iff _ _).mpr (named expected rfl)
        simp only [if_pos follows]
        rfl

/-- All that an envelope can do to the tracked chain, also when it raises:
nothing, or, with a passed link, move it to the hash the record advertises. -/
theorem tracking_verifyEnvelope (verifier : ExternalVerifier) (record : Dict) :
    ((verifyEnvelope P verifier record).2.expectedPrev = verifier.expectedPrev ∧
      (verifyEnvelope P verifier record).2.lastSeq = verifier.lastSeq) ∨
    (LinkPasses P verifier.expectedPrev record ∧
      ∃ chainHash, Dict.get record "chain_hash" (Json.text "") = .str chainHash ∧
        (verifyEnvelope P verifier record).2.expectedPrev = some chainHash ∧
        (verifyEnvelope P verifier record).2.lastSeq = Dict.get record "seq" .null) := by
  unfold verifyEnvelope stage conclude
  cases checkSignature P verifier.pubkey record with
  | error error => exact Or.inl ⟨rfl, rfl⟩
  | ok signature =>
      cases checkBinding P record with
      | error error => simp
      | ok binding =>
          simp only [expectedPrev_record]
          cases linked : checkLink P verifier.expectedPrev record with
          | error error => simp
          | ok link =>
              by_cases pass : link.status = .pass
              · have passes : LinkPasses P verifier.expectedPrev record := ⟨link, linked, pass⟩
                rcases ((linkPasses_iff P _ record).mp passes).1 with ⟨preimage, -, advertised⟩
                refine Or.inr ⟨passes, _, advertised, ?_⟩
                cases checkLwe P record with
                | error error => simp [track_of_pass pass advertised]
                | ok lwe => simp [track_of_pass pass advertised]
              · apply Or.inl
                cases checkLwe P record with
                | error error => simp [track_of_ne pass]
                | ok lwe => simp [track_of_ne pass]

/-- An envelope whose link check does not pass leaves the tracked chain alone. -/
theorem tracking_of_not_linkPasses {verifier : ExternalVerifier} {record : Dict}
    (broken : ¬LinkPasses P verifier.expectedPrev record) :
    (verifyEnvelope P verifier record).2.expectedPrev = verifier.expectedPrev ∧
      (verifyEnvelope P verifier record).2.lastSeq = verifier.lastSeq :=
  (tracking_verifyEnvelope P verifier record).resolve_right fun moved => broken moved.1

theorem checkBinding_ne_skip {record : Dict} {finding : Finding}
    (checked : checkBinding P record = .ok finding) : finding.status ≠ .skip := by
  unfold checkBinding at checked
  simp only at checked
  split at checked
  · split at checked
    · cases checked
      exact note_status_ne_skip _ _ _ _ _
    · cases checked
      exact note_status_ne_skip _ _ _ _ _
  · rcases bind_eq_ok_iff.mp checked with ⟨ok, -, same⟩
    cases same
    cases ok <;> simp

theorem checkLink_ne_skip {expectedPrev : Option PyStr} {record : Dict} {finding : Finding}
    (checked : checkLink P expectedPrev record = .ok finding) : finding.status ≠ .skip := by
  unfold checkLink at checked
  rcases bind_eq_ok_iff.mp checked with ⟨expected, -, found⟩
  simp only at found
  split at found
  · split at found
    · split at found
      · cases found
        exact note_status_ne_skip _ _ _ _ _
      · cases found
        exact note_status_ne_skip _ _ _ _ _
    · cases found
      exact note_status_ne_skip _ _ _ _ _
  · cases found
    exact note_status_ne_skip _ _ _ _ _

theorem checkLwe_ne_skip {record : Dict} {finding : Finding}
    (checked : checkLwe P record = .ok finding) : finding.status ≠ .skip := by
  unfold checkLwe at checked
  rcases bind_eq_ok_iff.mp checked with ⟨params, -, found⟩
  cases found
  exact note_status_ne_skip _ _ _ _ _

theorem checkPii_ne_skip (record : Dict) : (checkPii P record).status ≠ .skip := by
  unfold checkPii
  exact note_status_ne_skip _ _ _ _ _

theorem pass_of_ne {status : CheckStatus} (notFail : status ≠ .fail) (notSkip : status ≠ .skip) :
    status = .pass := by
  cases status with
  | pass => rfl
  | fail => exact absurd rfl notFail
  | skip => exact absurd rfl notSkip

/-! ## A verified envelope -/

/-- Where no check raises, the verdict is positive exactly when nothing fails,
and the tracked chain is the record's own hash if its link passed. -/
theorem verifyEnvelope_report {verifier after : ExternalVerifier} {record : Dict} {report : Report}
    (ran : verifyEnvelope P verifier record = (.ok report, after)) :
    ∃ signature binding link lwe,
      checkSignature P verifier.pubkey record = .ok signature ∧ checkBinding P record = .ok binding ∧
      checkLink P verifier.expectedPrev record = .ok link ∧ checkLwe P record = .ok lwe ∧
      report.checks = [signature, binding, link, lwe, checkPii P record] ∧
      (report.verified = true ↔ signature.status ≠ .fail ∧ binding.status = .pass ∧
        link.status = .pass ∧ lwe.status = .pass ∧ (checkPii P record).status = .pass) := by
  rcases (verifyEnvelope_eq_ok_iff P).mp ran with
    ⟨signature, binding, link, lwe, signed, bound, linked, profile, concluded⟩
  rcases conclude_verified concluded with ⟨checks, verdict⟩
  refine ⟨signature, binding, link, lwe, signed, bound, linked, profile, checks, verdict.trans ?_⟩
  simp only [List.forall_mem_cons, List.not_mem_nil, false_implies, implies_true, and_true]
  have passIff : ∀ {status : CheckStatus}, status ≠ .skip -> (status ≠ .fail ↔ status = .pass) := by
    intro status notSkip
    constructor
    · intro notFail
      exact pass_of_ne notFail notSkip
    · rintro rfl
      simp
  rw [passIff (checkBinding_ne_skip P bound), passIff (checkLink_ne_skip P linked),
    passIff (checkLwe_ne_skip P profile), passIff (checkPii_ne_skip P record)]

/-- After a passed link the state expects the record's own chain hash. -/
theorem expectedPrev_of_linkPasses {verifier after : ExternalVerifier} {record : Dict}
    {report : Report} (ran : verifyEnvelope P verifier record = (.ok report, after))
    (passes : LinkPasses P verifier.expectedPrev record) {chainHash : PyStr}
    (advertised : Dict.get record "chain_hash" (Json.text "") = .str chainHash) :
    after.expectedPrev = some chainHash ∧ after.lastSeq = Dict.get record "seq" .null := by
  rcases (verifyEnvelope_eq_ok_iff P).mp ran with
    ⟨signature, binding, link, lwe, -, -, linked, -, concluded⟩
  rcases passes with ⟨found, linked', pass⟩
  rw [linked] at linked'
  cases linked'
  rcases tracking_conclude concluded with ⟨-, tracked, sequence⟩
  rw [tracked, sequence]
  unfold afterChecks
  rw [track_of_pass pass advertised]
  simp

/-! ## Runs -/

/-- Feed envelopes one after the other.  An exception is an outcome like any
other: the next envelope meets the state it left behind. -/
abbrev verifyAll : ExternalVerifier -> List Dict -> List (Except PyError Report) × ExternalVerifier :=
  Machine.run (verifyEnvelope P)

/-- Every envelope of the run was reported verified. -/
def AllVerified (outcomes : List (Except PyError Report)) : Prop :=
  ∀ outcome ∈ outcomes, ∃ report, outcome = .ok report ∧ report.verified = true

end Verify
end ZeroAudit
