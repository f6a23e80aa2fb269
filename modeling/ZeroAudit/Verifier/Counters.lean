import ZeroAudit.SamplePlatform
import ZeroAudit.Verifier.Envelope

namespace ZeroAudit
namespace Verify

open Foundation Signature Commitment

/-!
# What the counters of a verifier say

Every counter but three belongs to one check, and only that check moves it.
A report therefore moves the counters of its findings and, at the end, the
number of records and one of the two verdict counters.  An envelope that
raises has moved the counters of the checks before the exception and no
verdict counter.

The signature counters carry the main result.  A record is counted as verified
only if its signature was accepted under an installed key or was skipped
because none was installed, and each of the two has its own counter.
-/

variable (P : Platform)

/-! ## Owners of counters -/

/-- The check whose outcomes a counter counts. -/
def StatKey.check : StatKey -> Option Check
  | .records | .verified | .failed => none
  | .signatureOk | .signatureFailed | .signatureUnchecked => some .signature
  | .bindingOk | .bindingFailed => some .bindingHash
  | .chainOk | .chainBroken => some .chainLink
  | .lweOk | .lweFailed => some .lweParams
  | .piiOk | .piiFailed => some .piiAssertion

/-- A finding of this check, which moves at most a counter of this check. -/
structure Finding.Owned (finding : Finding) (check : Check) : Prop where
  named : finding.check = check
  counter : ∀ key, finding.counter = some key -> key.check = some check

theorem owned_note {check : Check} {ok : Bool} {detail : PyStr} {okKey failKey : StatKey}
    (okOwner : okKey.check = some check) (failOwner : failKey.check = some check) :
    (note check ok detail okKey failKey).Owned check := by
  refine ⟨rfl, ?_⟩
  intro key moved
  cases ok with
  | true =>
      cases moved
      exact okOwner
  | false =>
      cases moved
      exact failOwner

/-- The counter a SIGNATURE finding moves follows from its status. -/
theorem checkSignature_counter {pubkey : Json} {record : Dict} {finding : Finding}
    (checked : checkSignature P pubkey record = .ok finding) :
    finding.check = .signature ∧ finding.counter = some (match finding.status with
      | .pass => .signatureOk
      | .fail => .signatureFailed
      | .skip => .signatureUnchecked) := by
  unfold checkSignature at checked
  simp only at checked
  split at checked
  · cases checked
    exact ⟨rfl, rfl⟩
  · split at checked
    · cases checked
      exact ⟨rfl, rfl⟩
    · rcases bind_eq_ok_iff.mp checked with ⟨ok, -, same⟩
      cases same
      cases ok <;> exact ⟨rfl, rfl⟩

theorem checkSignature_owned {pubkey : Json} {record : Dict} {finding : Finding}
    (checked : checkSignature P pubkey record = .ok finding) : finding.Owned .signature := by
  rcases checkSignature_counter P checked with ⟨check, counter⟩
  refine ⟨check, ?_⟩
  intro key moved
  rw [counter] at moved
  cases moved
  cases finding.status <;> rfl

theorem checkBinding_owned {record : Dict} {finding : Finding}
    (checked : checkBinding P record = .ok finding) : finding.Owned .bindingHash := by
  unfold checkBinding at checked
  simp only at checked
  split at checked
  · split at checked
    · cases checked
      exact owned_note rfl rfl
    · cases checked
      exact owned_note rfl rfl
  · rcases bind_eq_ok_iff.mp checked with ⟨ok, -, same⟩
    cases same
    refine ⟨rfl, ?_⟩
    intro key moved
    cases moved

/-- The counter a CHAIN_LINK finding moves follows from its status. -/
theorem checkLink_counter {expectedPrev : Option PyStr} {record : Dict} {finding : Finding}
    (checked : checkLink P expectedPrev record = .ok finding) :
    finding.check = .chainLink ∧
      finding.counter = some (if finding.status = .pass then .chainOk else .chainBroken) := by
  unfold checkLink at checked
  rcases bind_eq_ok_iff.mp checked with ⟨expected, -, found⟩
  simp only at found
  split at found
  · split at found
    · split at found
      · cases found
        exact ⟨rfl, rfl⟩
      · cases found
        exact ⟨rfl, rfl⟩
    · cases found
      exact ⟨rfl, rfl⟩
  · cases found
    exact ⟨rfl, rfl⟩

theorem checkLink_owned {expectedPrev : Option PyStr} {record : Dict} {finding : Finding}
    (checked : checkLink P expectedPrev record = .ok finding) : finding.Owned .chainLink := by
  rcases checkLink_counter P checked with ⟨check, counter⟩
  refine ⟨check, ?_⟩
  intro key moved
  rw [counter] at moved
  cases moved
  split <;> rfl

theorem checkLwe_owned {record : Dict} {finding : Finding}
    (checked : checkLwe P record = .ok finding) : finding.Owned .lweParams := by
  unfold checkLwe at checked
  rcases bind_eq_ok_iff.mp checked with ⟨params, -, found⟩
  cases found
  exact owned_note rfl rfl

theorem checkPii_owned (record : Dict) : (checkPii P record).Owned .piiAssertion :=
  owned_note rfl rfl

/-! ## One envelope -/

/-- How far a finding moves a counter. -/
def Finding.moves (finding : Finding) (key : StatKey) : Nat :=
  if finding.counter = some key then 1 else 0

theorem Finding.Owned.moves_eq_zero {finding : Finding} {check : Check} {key : StatKey}
    (owned : finding.Owned check) (other : key.check ≠ some check) : finding.moves key = 0 := by
  unfold Finding.moves
  rw [if_neg]
  intro moved
  exact other (owned.counter key moved)

theorem stats_record (verifier : ExternalVerifier) (finding : Finding) (key : StatKey) :
    (verifier.record finding).stats key = verifier.stats key + finding.moves key := by
  unfold ExternalVerifier.record Finding.moves
  split
  · next own moved =>
      rw [moved]
      by_cases same : key = own
      · simp [Stats.bump, same]
      · have different : own ≠ key := fun equal => same equal.symm
        simp [Stats.bump, same, different]
  · next moved => simp [moved]

/-- How far the verdict moves a counter. -/
def verdictMoves (verified : Bool) (key : StatKey) : Nat :=
  if key = .records ∨ key = (if verified then .verified else .failed) then 1 else 0

theorem stats_conclude {record : Dict} {checks : List Finding} {verifier after : ExternalVerifier}
    {report : Report} (concluded : conclude record checks verifier = (.ok report, after))
    (key : StatKey) : after.stats key = verifier.stats key + verdictMoves report.verified key := by
  cases concluded
  unfold verdictMoves
  cases checks.any fun finding => decide (finding.status = .fail) with
  | true => cases key <;> rfl
  | false => cases key <;> rfl

/-- A report moves the counters of its five findings, and those of its verdict. -/
theorem stats_of_report {verifier after : ExternalVerifier} {record : Dict} {report : Report}
    (ran : verifyEnvelope P verifier record = (.ok report, after)) (key : StatKey) :
    after.stats key = verifier.stats key + (report.checks.map (·.moves key)).sum +
      verdictMoves report.verified key := by
  rcases (verifyEnvelope_eq_ok_iff P).mp ran with
    ⟨signature, binding, link, lwe, -, -, -, -, concluded⟩
  rw [stats_conclude concluded key, (conclude_verified concluded).1]
  unfold afterChecks
  simp only [stats_record, stats_track, List.map_cons, List.map_nil, List.sum_cons, List.sum_nil]
  omega

/-- A finding of a check does not move the count of verdicts. -/
theorem Finding.Owned.verified_record {finding : Finding} {check : Check} (owned : finding.Owned check)
    (verifier : ExternalVerifier) :
    (verifier.record finding).stats .verified = verifier.stats .verified := by
  rw [stats_record, owned.moves_eq_zero (by simp [StatKey.check]), Nat.add_zero]

theorem stats_le_record (verifier : ExternalVerifier) (finding : Finding) (key : StatKey) :
    verifier.stats key ≤ (verifier.record finding).stats key := by
  rw [stats_record]
  exact Nat.le_add_right _ _

/-- Counters never go down, and an exception leaves the verdicts alone. -/
theorem stats_of_error {verifier after : ExternalVerifier} {record : Dict} {error : PyError}
    (ran : verifyEnvelope P verifier record = (.error error, after)) :
    after.stats .verified = verifier.stats .verified ∧
      ∀ key, verifier.stats key ≤ after.stats key := by
  unfold verifyEnvelope stage at ran
  cases signed : checkSignature P verifier.pubkey record with
  | error cause =>
      simp only [signed] at ran
      cases ran
      exact ⟨rfl, fun key => le_rfl⟩
  | ok signature =>
      have first := (checkSignature_owned P signed).verified_record verifier
      simp only [signed] at ran
      cases bound : checkBinding P record with
      | error cause =>
          simp only [bound] at ran
          cases ran
          exact ⟨first, stats_le_record verifier signature⟩
      | ok binding =>
          have second := (checkBinding_owned P bound).verified_record (verifier.record signature)
          have grown : ∀ key, verifier.stats key ≤
              ((verifier.record signature).record binding).stats key :=
            fun key => (stats_le_record verifier signature key).trans (stats_le_record _ binding key)
          simp only [bound, expectedPrev_record] at ran
          cases linked : checkLink P verifier.expectedPrev record with
          | error cause =>
              simp only [linked] at ran
              cases ran
              exact ⟨second.trans first, grown⟩
          | ok link =>
              simp only [linked] at ran
              cases profile : checkLwe P record with
              | error cause =>
                  simp only [profile] at ran
                  cases ran
                  refine ⟨?_, ?_⟩
                  · rw [(checkLink_owned P linked).verified_record, stats_track, second, first]
                  · intro key
                    apply le_trans _ (stats_le_record _ link key)
                    rw [stats_track]
                    exact grown key
              | ok lwe =>
                  simp only [profile, conclude] at ran
                  cases ran

/-! ## Verified means signed, or not checked -/

/-- A key is installed, and the signature of the record verifies under it. -/
def SignedUnder (pubkey : Json) (record : Dict) : Prop :=
  pubkey.truthy = true ∧
    verifySignature P pubkey (Dict.get record "signature_b64" (Json.text ""))
      (Dict.get record "txn_id" (Json.text "")) (Dict.get record "binding_hash" (Json.text ""))
      (Dict.get record "timestamp_ns" (.int 0)) (Dict.get record "chain_hash" (Json.text "")) = .ok true

theorem signedUnder_of_pass {pubkey : Json} {record : Dict} {finding : Finding}
    (checked : checkSignature P pubkey record = .ok finding) (pass : finding.status = .pass) :
    SignedUnder P pubkey record := by
  have passed := (checkSignature_pass_iff P pubkey record).mp ⟨finding, checked, pass⟩
  exact ⟨passed.1, passed.2.2⟩

/-- What a report says about the signature, and what it counts. -/
theorem signature_of_report {verifier after : ExternalVerifier} {record : Dict} {report : Report}
    (ran : verifyEnvelope P verifier record = (.ok report, after)) :
    ∃ signature ∈ report.checks, signature.check = .signature ∧
      checkSignature P verifier.pubkey record = .ok signature ∧
      (report.verified = true -> signature.status ≠ .fail) ∧
      after.stats .verified = verifier.stats .verified + (if report.verified then 1 else 0) ∧
      after.stats .failed = verifier.stats .failed + (if report.verified then 0 else 1) ∧
      after.stats .signatureOk = verifier.stats .signatureOk + signature.moves .signatureOk ∧
      after.stats .signatureUnchecked =
        verifier.stats .signatureUnchecked + signature.moves .signatureUnchecked := by
  rcases verifyEnvelope_report P ran with
    ⟨signature, binding, link, lwe, signed, bound, linked, profile, checks, verdict⟩
  have moved := stats_of_report P ran
  have others : ∀ {key : StatKey}, key.check ≠ some .bindingHash -> key.check ≠ some .chainLink ->
      key.check ≠ some .lweParams -> key.check ≠ some .piiAssertion ->
      after.stats key = verifier.stats key + signature.moves key + verdictMoves report.verified key := by
    intro key notBinding notLink notLwe notPii
    rw [moved key, checks]
    simp only [List.map_cons, List.map_nil, List.sum_cons, List.sum_nil,
      (checkBinding_owned P bound).moves_eq_zero notBinding,
      (checkLink_owned P linked).moves_eq_zero notLink,
      (checkLwe_owned P profile).moves_eq_zero notLwe,
      (checkPii_owned P record).moves_eq_zero notPii, Nat.add_zero]
  have own := checkSignature_owned P signed
  refine ⟨signature, ?_, own.named, signed, fun positive => (verdict.mp positive).1, ?_, ?_, ?_, ?_⟩
  · rw [checks]
    exact List.mem_cons_self
  · rw [others (by decide) (by decide) (by decide) (by decide), own.moves_eq_zero (by decide)]
    cases report.verified <;> rfl
  · rw [others (by decide) (by decide) (by decide) (by decide), own.moves_eq_zero (by decide)]
    cases report.verified <;> rfl
  · rw [others (by decide) (by decide) (by decide) (by decide)]
    cases report.verified <;> rfl
  · rw [others (by decide) (by decide) (by decide) (by decide)]
    cases report.verified <;> rfl

/-- The signature of a verified record passed, or was skipped for want of a key. -/
theorem passed_or_skipped_of_verified {verifier after : ExternalVerifier} {record : Dict}
    {report : Report} (ran : verifyEnvelope P verifier record = (.ok report, after))
    (positive : report.verified = true) :
    ∃ signature ∈ report.checks, signature.check = .signature ∧
      (signature.status = .pass ∧ SignedUnder P verifier.pubkey record ∨
        signature.status = .skip ∧ verifier.hasKey = false) := by
  rcases signature_of_report P ran with ⟨signature, member, check, signed, verdict, -⟩
  have notFail := verdict positive
  refine ⟨signature, member, check, ?_⟩
  cases status : signature.status with
  | pass => exact Or.inl ⟨rfl, signedUnder_of_pass P signed status⟩
  | fail => exact absurd status notFail
  | skip => exact Or.inr ⟨rfl, (checkSignature_skip_iff P signed).mp status⟩

/-- A record after which nothing has failed and nothing was left unchecked was
signed. -/
theorem signed_of_counters {verifier after : ExternalVerifier} {record : Dict} {report : Report}
    (ran : verifyEnvelope P verifier record = (.ok report, after))
    (noneFailed : after.stats .failed = 0) (allChecked : after.stats .signatureUnchecked = 0) :
    SignedUnder P verifier.pubkey record := by
  rcases signature_of_report P ran with
    ⟨signature, -, -, signed, verdict, -, failed, -, unchecked⟩
  have positive : report.verified = true := by
    cases positive : report.verified with
    | true => rfl
    | false =>
        rw [positive] at failed
        simp only [Bool.false_eq_true, if_false] at failed
        omega
  have counter := (checkSignature_counter P signed).2
  have notFail := verdict positive
  cases status : signature.status with
  | pass => exact signedUnder_of_pass P signed status
  | fail => exact absurd status notFail
  | skip =>
      rw [status] at counter
      simp only [Finding.moves, counter, if_true] at unchecked
      omega

/-! ## Runs with late keys -/

/-- What the threads of the verifier service do to the shared verifier. -/
inductive Action where
  | setPublicKey (pubkeyB64 : Json)
  | verifyEnvelope (record : Dict)
  | resetChain

/-- One action; only an envelope is answered. -/
def act (verifier : ExternalVerifier) : Action -> Option (Except PyError Report) × ExternalVerifier
  | .setPublicKey pubkeyB64 => (none, verifier.setPublicKey pubkeyB64)
  | .verifyEnvelope record =>
      let outcome := verifyEnvelope P verifier record
      (some outcome.1, outcome.2)
  | .resetChain => (none, verifier.resetChain)

/-- The state after these actions. -/
def reached (verifier : ExternalVerifier) (actions : List Action) : ExternalVerifier :=
  (Machine.run (act P) verifier actions).2

/-- Every verified record is counted as signed or as unchecked. -/
def Accounted (verifier : ExternalVerifier) : Prop :=
  verifier.stats .verified ≤ verifier.stats .signatureOk + verifier.stats .signatureUnchecked

theorem accounted_act {verifier : ExternalVerifier} (action : Action)
    (accounted : Accounted verifier) : Accounted (act P verifier action).2 := by
  cases action with
  | setPublicKey pubkeyB64 => exact accounted
  | resetChain => exact accounted
  | verifyEnvelope record =>
      unfold act Accounted at *
      simp only
      rcases ran : verifyEnvelope P verifier record with ⟨outcome, after⟩
      cases outcome with
      | error error =>
          rcases stats_of_error P ran with ⟨verified, grow⟩
          have ok := grow .signatureOk
          have unchecked := grow .signatureUnchecked
          simp only
          omega
      | ok report =>
          rcases signature_of_report P ran with
            ⟨signature, -, -, signed, positive, verified, -, ok, unchecked⟩
          simp only
          rw [verified, ok, unchecked]
          have counter := (checkSignature_counter P signed).2
          unfold Finding.moves
          rw [counter]
          cases verdict : report.verified with
          | false => simp only [Bool.false_eq_true, if_false]; omega
          | true =>
              have notFail := positive verdict
              cases status : signature.status with
              | pass => simp; omega
              | skip => simp; omega
              | fail => exact absurd status notFail

/-- No action takes a counter back. -/
theorem stats_act_le (verifier : ExternalVerifier) (action : Action) (key : StatKey) :
    verifier.stats key ≤ (act P verifier action).2.stats key := by
  cases action with
  | setPublicKey pubkeyB64 => exact le_rfl
  | resetChain => exact le_rfl
  | verifyEnvelope record =>
      unfold act
      simp only
      rcases ran : verifyEnvelope P verifier record with ⟨outcome, after⟩
      cases outcome with
      | error error => exact (stats_of_error P ran).2 key
      | ok report =>
          rw [stats_of_report P ran key, Nat.add_assoc]
          exact Nat.le_add_right _ _

theorem stats_reached_le (verifier : ExternalVerifier) (actions : List Action) (key : StatKey) :
    verifier.stats key ≤ (reached P verifier actions).stats key := by
  unfold reached
  exact Machine.invariant_run (fun state => verifier.stats key ≤ state.stats key)
    (fun state action _ below => below.trans (stats_act_le P state action key)) le_rfl

theorem reached_append (verifier : ExternalVerifier) (earlier later : List Action) :
    reached P verifier (earlier ++ later) = reached P (reached P verifier earlier) later := by
  unfold reached
  rw [Machine.run_append]

/-- In every run of a verifier, with any order of key installations, envelopes
and resets: a verified record was signed under the key installed at that
moment, or was skipped because there was none; the verified records are among
those with a valid or an unchecked signature; and if nothing failed and nothing
was left unchecked, every reported record was signed. -/
theorem verified_signed_or_unchecked (pubkeyB64 : Json) (actions : List Action) :
    (∀ record report after,
      verifyEnvelope P (reached P (.new pubkeyB64) actions) record = (.ok report, after) ->
      report.verified = true ->
      ∃ signature ∈ report.checks, signature.check = .signature ∧
        (signature.status = .pass ∧ SignedUnder P (reached P (.new pubkeyB64) actions).pubkey record ∨
          signature.status = .skip ∧ (reached P (.new pubkeyB64) actions).hasKey = false)) ∧
    (reached P (.new pubkeyB64) actions).stats .verified ≤
      (reached P (.new pubkeyB64) actions).stats .signatureOk +
        (reached P (.new pubkeyB64) actions).stats .signatureUnchecked ∧
    ((reached P (.new pubkeyB64) actions).stats .failed = 0 ->
      (reached P (.new pubkeyB64) actions).stats .signatureUnchecked = 0 ->
      ∀ earlier record later, actions = earlier ++ .verifyEnvelope record :: later ->
      ∀ report after,
        verifyEnvelope P (reached P (.new pubkeyB64) earlier) record = (.ok report, after) ->
        SignedUnder P (reached P (.new pubkeyB64) earlier).pubkey record) := by
  refine ⟨?_, ?_, ?_⟩
  · intro record report after ran positive
    exact passed_or_skipped_of_verified P ran positive
  · exact Machine.invariant_run Accounted (fun _ action _ => accounted_act P action) le_rfl
  · rintro noneFailed allChecked earlier record later rfl report after ran
    -- counters only grow, so the zeros at the end were zeros right after this record
    have here : (act P (reached P (.new pubkeyB64) earlier) (.verifyEnvelope record)).2 = after := by
      simp only [act, ran]
    have split : reached P (.new pubkeyB64) (earlier ++ .verifyEnvelope record :: later) =
        reached P after later := by
      rw [reached_append, ← here]
      rfl
    rw [split] at noneFailed allChecked
    have failedLe := stats_reached_le P after later .failed
    have uncheckedLe := stats_reached_le P after later .signatureUnchecked
    apply signed_of_counters P ran
    · omega
    · omega

/-- An envelope without a signature whose chain hash is consistent. -/
def unsignedEnvelope : Dict :=
  [(PyStr.ofString "txn_id", Json.text "TXN-1"),
    (PyStr.ofString "binding_hash", .str (List.replicate 64 (.scalar 'a'))),
    (PyStr.ofString "chain_hash", .str (samplePlatform.sha3Hex
      (List.replicate 64 0x61 ++ [0x54, 0x58, 0x4e, 0x2d, 0x31, 0x30]))),
    (PyStr.ofString "lwe_params", Lwe.lweParams)]

/-- Before a key is installed, an envelope without a signature is reported
verified and counted as such, with no failure and no accepted signature. -/
theorem unsigned_envelope_verified :
    (verifyEnvelope samplePlatform (.new .null) unsignedEnvelope).1.toOption.map Report.verified =
      some true ∧
    (reached samplePlatform (.new .null) [.verifyEnvelope unsignedEnvelope]).stats .verified = 1 ∧
    (reached samplePlatform (.new .null) [.verifyEnvelope unsignedEnvelope]).stats .failed = 0 ∧
    (reached samplePlatform (.new .null) [.verifyEnvelope unsignedEnvelope]).stats .signatureOk = 0 := by
  refine ⟨?_, ?_, ?_, ?_⟩
  all_goals decide +kernel

end Verify
end ZeroAudit
