import ZeroAudit.Verifier.Counters

namespace ZeroAudit
namespace Verify

open Foundation Signature Commitment

/-!
# Rejected envelopes and the tracked chain

The link check advances the tracked chain on its own, before the verdict is
drawn and whatever the other four checks found.  A rejected envelope is
therefore harmless exactly when its link does not follow the tracked chain, or
follows it to where the chain already is.  Envelopes that are harmless in the
state they arrive in can be erased from any stream without changing the answer
to any other envelope.
-/

variable (P : Platform)

/-- The advertised chain hash recomputes from the fields of the record, and the
predecessor it names is the expected one, if one is expected. -/
def Follows (expectedPrev : Option PyStr) (record : Dict) : Prop :=
  (∃ preimage, envelopeLink P record = .ok preimage ∧
    Dict.get record "chain_hash" (Json.text "") = .str (P.sha3Hex preimage)) ∧
  ∀ expected, expectedPrev = some expected ->
    Dict.get record "prev_chain_hash" (Json.text "") = .str expected

/-- The tracked chain already stands at this record. -/
def StandsAt (verifier : ExternalVerifier) (record : Dict) : Prop :=
  (∃ chainHash, Dict.get record "chain_hash" (Json.text "") = .str chainHash ∧
    verifier.expectedPrev = some chainHash) ∧
  verifier.lastSeq = Dict.get record "seq" .null

/-- The record does not follow the tracked chain, or adds nothing to it. -/
def Harmless (verifier : ExternalVerifier) (record : Dict) : Prop :=
  Follows P verifier.expectedPrev record -> StandsAt verifier record

/-- The part of a verifier that later answers depend on. -/
def view (verifier : ExternalVerifier) : Json × Option PyStr :=
  (verifier.pubkey, verifier.expectedPrev)

/-- A harmless envelope changes nothing that later answers depend on, also when
it raises. -/
theorem view_of_harmless {verifier : ExternalVerifier} {record : Dict}
    (harmless : Harmless P verifier record) :
    view (verifyEnvelope P verifier record).2 = view verifier := by
  unfold view
  rw [pubkey_verifyEnvelope]
  rcases tracking_verifyEnvelope P verifier record with ⟨same, -⟩ | ⟨passes, _, advertised, moved, -⟩
  · rw [same]
  · rcases (harmless ((linkPasses_iff P _ record).mp passes)).1 with ⟨chainHash, known, stands⟩
    rw [advertised] at known
    cases known
    rw [moved, stands]

/-- Where a report comes out, the tracked chain stays exactly for a harmless
envelope. -/
theorem tracking_iff_harmless {verifier after : ExternalVerifier} {record : Dict} {report : Report}
    (ran : verifyEnvelope P verifier record = (.ok report, after)) :
    after.expectedPrev = verifier.expectedPrev ∧ after.lastSeq = verifier.lastSeq ↔
      Harmless P verifier record := by
  constructor
  · rintro ⟨chain, sequence⟩ follows
    have passes := (linkPasses_iff P _ record).mpr follows
    rcases follows.1 with ⟨preimage, -, advertised⟩
    rcases expectedPrev_of_linkPasses P ran passes advertised with ⟨moved, movedSeq⟩
    exact ⟨⟨_, advertised, chain.symm.trans moved⟩, sequence.symm.trans movedSeq⟩
  · intro harmless
    by_cases follows : Follows P verifier.expectedPrev record
    · rcases harmless follows with ⟨⟨chainHash, advertised, stands⟩, sequence⟩
      have passes := (linkPasses_iff P _ record).mpr follows
      rcases expectedPrev_of_linkPasses P ran passes advertised with ⟨moved, movedSeq⟩
      exact ⟨moved.trans stands.symm, movedSeq.trans sequence.symm⟩
    · have broken : ¬LinkPasses P verifier.expectedPrev record :=
        fun passes => follows ((linkPasses_iff P _ record).mp passes)
      have tracking := tracking_of_not_linkPasses P broken
      rw [ran] at tracking
      exact tracking

/-- Answers, and what later answers depend on, are functions of the view. -/
theorem view_verifyEnvelope (verifier other : ExternalVerifier) (record : Dict)
    (same : view verifier = view other) :
    (verifyEnvelope P verifier record).1 = (verifyEnvelope P other record).1 ∧
      view (verifyEnvelope P verifier record).2 = view (verifyEnvelope P other record).2 := by
  rcases Prod.mk.inj same with ⟨keys, chains⟩
  unfold verifyEnvelope stage conclude view
  rw [keys]
  cases checkSignature P other.pubkey record with
  | error error => exact ⟨rfl, by simp [keys, chains]⟩
  | ok signature =>
      cases checkBinding P record with
      | error error => exact ⟨rfl, by simp [keys, chains]⟩
      | ok binding =>
          simp only [expectedPrev_record, chains]
          cases checkLink P other.expectedPrev record with
          | error error => exact ⟨rfl, by simp [keys, chains]⟩
          | ok link =>
              have tracked : ∀ state : ExternalVerifier, state.expectedPrev = other.expectedPrev ->
                  (state.track record link).expectedPrev = (other.track record link).expectedPrev := by
                intro state equal
                unfold ExternalVerifier.track
                split
                · rfl
                · exact equal
              have left := tracked ((verifier.record signature).record binding) (by simp [chains])
              have right := tracked ((other.record signature).record binding) (by simp)
              cases checkLwe P record with
              | error error => exact ⟨rfl, by simp [keys, left, right]⟩
              | ok lwe => exact ⟨rfl, by simp [keys, left, right]⟩

/-- An item of a mixed stream: an envelope, and whether it is kept. -/
abbrev Item := Bool × Dict

def deliver (verifier : ExternalVerifier) (item : Item) :
    Except PyError Report × ExternalVerifier :=
  verifyEnvelope P verifier item.2

theorem view_deliver (state other : ExternalVerifier) (item : Item) (same : view state = view other) :
    (deliver P state item).1 = (deliver P other item).1 ∧
      view (deliver P state item).2 = view (deliver P other item).2 :=
  view_verifyEnvelope P state other item.2 same

/-- The envelopes that are kept, without the others. -/
def keptEnvelopes (stream : List Item) : List Dict :=
  (stream.filter Prod.fst).map Prod.snd

theorem run_deliver (verifier : ExternalVerifier) (stream : List Item) :
    (Machine.run (deliver P) verifier stream).1 =
      (verifyAll P verifier (stream.map Prod.snd)).1 := by
  induction stream generalizing verifier with
  | nil => rfl
  | cons item rest inductionHypothesis =>
      simp only [Machine.run_cons, List.map_cons, inductionHypothesis]
      rfl

/-- In every state with a key, a rejected envelope leaves the tracked chain
unchanged exactly when it is harmless.  In every stream in which each injected
envelope is harmless where it arrives, the others get the answers they get
without the injected ones. -/
theorem rejected_envelope_harmless :
    (∀ verifier record report after, verifier.hasKey = true ->
      verifyEnvelope P verifier record = (.ok report, after) -> report.verified = false ->
      (after.expectedPrev = verifier.expectedPrev ∧ after.lastSeq = verifier.lastSeq ↔
        Harmless P verifier record)) ∧
    (∀ verifier (stream : List Item), verifier.hasKey = true ->
      Machine.Along (deliver P) (fun state item => item.1 = false -> Harmless P state item.2)
        verifier stream ->
      Machine.keptAnswers Prod.fst stream (Machine.run (deliver P) verifier stream).1 =
        (verifyAll P verifier (keptEnvelopes stream)).1) := by
  constructor
  · intro verifier record report after _ ran _
    exact tracking_iff_harmless P ran
  · intro verifier stream _ harmless
    have erased := Machine.run_filter view Prod.fst (view_deliver P)
      (rfl : view verifier = view verifier)
      (Machine.along_mono
        (fun state item silent injected => view_of_harmless P (silent injected)) harmless)
    rw [erased, run_deliver]
    rfl

/-- A key that decodes, for which nobody has signed the envelope below. -/
def someKey : PyStr := Base64.encode (List.replicate 32 7)

/-- With a key installed, an envelope without a signature is rejected and still
moves the tracked chain.  After it no record that starts from genesis can be
verified. -/
theorem rejected_envelope_moves_chain :
    (verifyEnvelope samplePlatform (.new (.str someKey)) unsignedEnvelope).1.toOption.map
        Report.verified = some false ∧
    (verifyEnvelope samplePlatform (.new (.str someKey)) unsignedEnvelope).2.expectedPrev ≠
        (ExternalVerifier.new (.str someKey)).expectedPrev ∧
    ∀ record report after, Dict.get record "prev_chain_hash" (Json.text "") = .str GENESIS_HASH ->
      verifyEnvelope samplePlatform
        (verifyEnvelope samplePlatform (.new (.str someKey)) unsignedEnvelope).2 record =
          (.ok report, after) ->
      report.verified = false := by
  have moved : ∃ chainHash, chainHash ≠ GENESIS_HASH ∧
      (verifyEnvelope samplePlatform (.new (.str someKey)) unsignedEnvelope).2.expectedPrev =
        some chainHash :=
    ⟨samplePlatform.sha3Hex (List.replicate 64 0x61 ++ [0x54, 0x58, 0x4e, 0x2d, 0x31, 0x30]),
      by decide +kernel, by decide +kernel⟩
  refine ⟨by decide +kernel, by decide +kernel, ?_⟩
  intro record report after start ran
  rcases moved with ⟨chainHash, other, expected⟩
  rcases verifyEnvelope_report samplePlatform ran with
    ⟨signature, binding, link, lwe, -, -, linked, -, -, verdict⟩
  cases positive : report.verified with
  | false => rfl
  | true =>
      have passes : LinkPasses samplePlatform _ record := ⟨link, linked, (verdict.mp positive).2.2.1⟩
      have named := ((linkPasses_iff samplePlatform _ record).mp passes).2 chainHash expected
      rw [start] at named
      cases named
      exact absurd rfl other

end Verify
end ZeroAudit
