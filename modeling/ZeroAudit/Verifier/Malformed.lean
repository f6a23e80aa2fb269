import ZeroAudit.Chain.Walk
import ZeroAudit.Verifier.Counters
import ZeroAudit.Verifier.Dashboard

namespace ZeroAudit
namespace Verify

open Foundation Signature Commitment

/-!
# Records of any shape

The records of the public topics may bind any field to any value.  The binding
check catches every exception.  The link check, the signature check and the
profile check do not, and an exception there is the end of the run: the
counters of the earlier checks have moved, the later ones and the number of
records have not.  So a report comes out exactly for the records described
here, and the counters of a verifier balance as long as it meets no others.

The walk over a buffer has the same weak points at each record, and one more
of its own, the number it expects next.
-/

variable (P : Platform)

/-! ## What the checks need -/

/-- The three hashed fields are texts, and these and the text of the timestamp
can be encoded. -/
def Linkable (record : Dict) : Prop :=
  ∃ prev binding id, Dict.get record "prev_chain_hash" (Json.text "") = .str prev ∧
    Dict.get record "binding_hash" (Json.text "") = .str binding ∧
    Dict.get record "txn_id" (Json.text "") = .str id ∧
    (PyStr.utf8 (linkText prev binding id (P.str (Dict.get record "timestamp_ns" (.int 0))))).isSome

theorem linkable_iff (record : Dict) : Linkable P record ↔ ∃ preimage, envelopeLink P record = .ok preimage := by
  unfold Linkable envelopeLink
  simp only [linkPreimage_eq_ok_iff, Option.isSome_iff_exists]
  constructor
  · rintro ⟨prev, binding, id, hasPrev, hasBinding, hasId, preimage, encoded⟩
    exact ⟨preimage, prev, binding, id, hasPrev, hasBinding, hasId, encoded⟩
  · rintro ⟨preimage, prev, binding, id, hasPrev, hasBinding, hasId, encoded⟩
    exact ⟨prev, binding, id, hasPrev, hasBinding, hasId, preimage, encoded⟩

/-- A signature is about to be verified: the key decodes to the bytes of a public
key, and the signature decodes. -/
structure Verifiable (pubkey : Json) (record : Dict) : Prop where
  installed : pubkey.truthy = true
  present : (Dict.get record "signature_b64" (Json.text "")).truthy = true
  publicKey : ∃ raw, pubkey.b64decode = .ok raw ∧ raw.length = 32
  signature : ∃ signature, envelopeSignature record = .ok signature

/-- The record has the types that the checks need to come to a report under this key. -/
structure Answerable (pubkey : Json) (record : Dict) : Prop where
  linkable : Linkable P record
  chainHash : Verifiable pubkey record ->
    ∃ chainHash, Dict.get record "chain_hash" (Json.text "") = .str chainHash
  lweParams : (Dict.get record "lwe_params" (.obj [])).truthy = true ->
    ∃ params, Dict.get record "lwe_params" (.obj []) = .obj params

/-! ## When a check comes to a finding -/

/-- What cannot be decoded is a refused signature, not an exception. -/
theorem caught_of_b64decode {value : Json} {error : PyError} (failed : value.b64decode = .error error) :
    (error.isValueError || error.isTypeError) = true := by
  unfold Json.b64decode at failed
  cases value with
  | str own =>
      dsimp only at failed
      split at failed
      · cases failed
      · cases failed
        rfl
      · cases failed
        rfl
  | _ =>
      cases failed
      rfl

/-- Where the link can be computed, verification raises exactly on a decoded
signature over a chain hash that is no text. -/
theorem verifySignature_answers_iff (pubkey : Json) {record : Dict} {preimage : Bytes}
    (linked : envelopeLink P record = .ok preimage) :
    (∃ ok, verifySignature P pubkey (Dict.get record "signature_b64" (Json.text ""))
      (Dict.get record "txn_id" (Json.text "")) (Dict.get record "binding_hash" (Json.text ""))
      (Dict.get record "timestamp_ns" (.int 0)) (Dict.get record "chain_hash" (Json.text "")) = .ok ok) ↔
      ((∃ raw, pubkey.b64decode = .ok raw ∧ raw.length = 32) ->
        (∃ signature, envelopeSignature record = .ok signature) ->
          ∃ chainHash, Dict.get record "chain_hash" (Json.text "") = .str chainHash) := by
  unfold envelopeLink linkPreimage at linked
  simp only [bind_eq_ok_iff] at linked
  rcases linked with ⟨_, -, binding, bindingBytes, id, idBytes, stamp, stampBytes, -⟩
  unfold verifySignature envelopeSignature
  cases key : pubkey.b64decode with
  | error error => simp [bind, Except.bind, caught_of_b64decode key]
  | ok raw =>
      by_cases length : raw.length = 32
      · simp only [fromPublicBytes, length, if_true, bind, Except.bind]
        cases decoded : (Dict.get record "signature_b64" (Json.text "")).b64decode with
        | error error => simp [caught_of_b64decode decoded]
        | ok signature =>
            simp only [signingPayload, idBytes, bindingBytes, stampBytes, bind, Except.bind]
            cases Dict.get record "chain_hash" (Json.text "") with
            | str chainHash =>
                cases encoded : PyStr.utf8 chainHash with
                | none => simp [Json.encode, encoded, PyError.isValueError]
                | some bytes => simp [Json.encode, encoded, pure, Except.pure]
            | _ => simp [Json.encode, Json.noAttribute, PyError.isValueError, PyError.isTypeError, length]
      · simp [fromPublicBytes, length, bind, Except.bind, PyError.isValueError]

/-- So does the signature check. -/
theorem checkSignature_answers_iff (pubkey : Json) {record : Dict} {preimage : Bytes}
    (linked : envelopeLink P record = .ok preimage) :
    (∃ finding, checkSignature P pubkey record = .ok finding) ↔
      (Verifiable pubkey record ->
        ∃ chainHash, Dict.get record "chain_hash" (Json.text "") = .str chainHash) := by
  have verified := verifySignature_answers_iff P pubkey linked
  unfold checkSignature
  cases installed : pubkey.truthy with
  | false =>
      refine ⟨?_, fun _ => ⟨_, rfl⟩⟩
      intro _ verifiable
      rw [verifiable.installed] at installed
      cases installed
  | true =>
      cases present : (Dict.get record "signature_b64" (Json.text "")).truthy with
      | false =>
          simp only [present, Bool.not_true, Bool.not_false, Bool.false_eq_true, if_false, if_true]
          refine ⟨?_, fun _ => ⟨_, rfl⟩⟩
          intro _ verifiable
          rw [verifiable.present] at present
          cases present
      | true =>
          simp only [present, Bool.not_true, Bool.false_eq_true, if_false, bind_eq_ok_iff]
          constructor
          · rintro ⟨finding, ok, ran, -⟩ verifiable
            exact verified.mp ⟨ok, ran⟩ verifiable.publicKey verifiable.signature
          · intro text
            rcases verified.mpr (fun key signature => text ⟨installed, present, key, signature⟩) with
              ⟨ok, ran⟩
            exact ⟨_, ok, ran, rfl⟩

/-- Where the link can be computed, BINDING_HASH comes to a finding. -/
theorem checkBinding_answers {record : Dict} {preimage : Bytes}
    (linked : envelopeLink P record = .ok preimage) : ∃ finding, checkBinding P record = .ok finding := by
  rcases (linkPreimage_eq_ok_iff ..).mp linked with ⟨_, binding, _, -, named, -⟩
  unfold checkBinding
  cases published : (Dict.get record "commitment_b64" (Json.text "")).truthy with
  | true =>
      simp only [published, if_true]
      split
      · exact ⟨_, rfl⟩
      · exact ⟨_, rfl⟩
  | false =>
      simp only [published, Bool.false_eq_true, if_false, named, hexShaped, List.length_map,
        allHexDigits_chars]
      split
      · exact ⟨_, rfl⟩
      · exact ⟨_, rfl⟩

/-- So does CHAIN_LINK, whatever the verifier expects. -/
theorem checkLink_answers (expectedPrev : Option PyStr) {record : Dict} {preimage : Bytes}
    (linked : envelopeLink P record = .ok preimage) :
    ∃ finding, checkLink P expectedPrev record = .ok finding := by
  unfold envelopeLink at linked
  unfold checkLink computeChainHash
  simp only [linked, bind, Except.bind, pure, Except.pure]
  split
  · split
    · split
      · exact ⟨_, rfl⟩
      · exact ⟨_, rfl⟩
    · exact ⟨_, rfl⟩
  · exact ⟨_, rfl⟩

/-- A value has `.get` after `or \x7b\x7d` unless it is truthy and no dictionary. -/
theorem asDict_orElse_iff (value : Json) :
    (∃ params, (value.orElse (.obj [])).asDict = .ok params) ↔
      (value.truthy = true -> ∃ params, value = .obj params) := by
  unfold Json.orElse
  cases truthy : value.truthy with
  | false => simp [Json.asDict]
  | true => cases value <;> simp [Json.asDict]

/-- LWE_PARAMS raises exactly on a truthy value that is no dictionary. -/
theorem checkLwe_answers_iff (record : Dict) :
    (∃ finding, checkLwe P record = .ok finding) ↔
      ((Dict.get record "lwe_params" (.obj [])).truthy = true ->
        ∃ params, Dict.get record "lwe_params" (.obj []) = .obj params) := by
  rw [← asDict_orElse_iff]
  unfold checkLwe
  simp only [bind_eq_ok_iff]
  constructor
  · rintro ⟨finding, params, read, -⟩
    exact ⟨params, read⟩
  · rintro ⟨params, read⟩
    exact ⟨_, params, read, rfl⟩

/-- A verifier comes to a report exactly on the records that are answerable
under the key it has. -/
theorem answers_iff_answerable (verifier : ExternalVerifier) (record : Dict) :
    (∃ report, (verifyEnvelope P verifier record).1 = .ok report) ↔ Answerable P verifier.pubkey record := by
  constructor
  · rintro ⟨report, answered⟩
    have ran : verifyEnvelope P verifier record = (.ok report, (verifyEnvelope P verifier record).2) := by
      rw [← answered]
    rcases (verifyEnvelope_eq_ok_iff P).mp ran with
      ⟨signature, binding, link, lwe, signed, -, chained, profile, -⟩
    rcases bind_eq_ok_iff.mp chained with ⟨expected, computed, -⟩
    rcases bind_eq_ok_iff.mp computed with ⟨preimage, linked, -⟩
    exact ⟨(linkable_iff P record).mpr ⟨preimage, linked⟩,
      (checkSignature_answers_iff P _ linked).mp ⟨signature, signed⟩,
      (checkLwe_answers_iff P record).mp ⟨lwe, profile⟩⟩
  · intro answerable
    rcases (linkable_iff P record).mp answerable.linkable with ⟨preimage, linked⟩
    rcases (checkSignature_answers_iff P _ linked).mpr answerable.chainHash with ⟨signature, signed⟩
    rcases checkBinding_answers P linked with ⟨binding, bound⟩
    rcases checkLink_answers P verifier.expectedPrev linked with ⟨link, chained⟩
    rcases (checkLwe_answers_iff P record).mpr answerable.lweParams with ⟨lwe, profile⟩
    have ran := (verifyEnvelope_eq_ok_iff P).mpr
      ⟨signature, binding, link, lwe, signed, bound, chained, profile, rfl⟩
    exact ⟨_, congrArg Prod.fst ran⟩

/-! ## Counters that balance -/

/-- Every record is counted by its verdict, and by each check that counts all
of its outcomes. -/
structure Balanced (stats : Stats) : Prop where
  verdict : stats .records = stats .verified + stats .failed
  signature : stats .records = stats .signatureOk + stats .signatureFailed + stats .signatureUnchecked
  chainLink : stats .records = stats .chainOk + stats .chainBroken
  lweParams : stats .records = stats .lweOk + stats .lweFailed
  piiAssertion : stats .records = stats .piiOk + stats .piiFailed

/-- A report moves a counter as the finding of its check does, or as the verdict
does if no check owns it. -/
theorem stats_of_owner {verifier after : ExternalVerifier} {record : Dict} {report : Report}
    (ran : verifyEnvelope P verifier record = (.ok report, after)) :
    ∃ signature binding link lwe, checkSignature P verifier.pubkey record = .ok signature ∧
      checkBinding P record = .ok binding ∧ checkLink P verifier.expectedPrev record = .ok link ∧
      checkLwe P record = .ok lwe ∧
      ∀ key, after.stats key = verifier.stats key + match key.check with
        | none => verdictMoves report.verified key
        | some .signature => signature.moves key
        | some .bindingHash => binding.moves key
        | some .chainLink => link.moves key
        | some .lweParams => lwe.moves key
        | some .piiAssertion => (checkPii P record).moves key := by
  rcases verifyEnvelope_report P ran with
    ⟨signature, binding, link, lwe, signed, bound, linked, profile, checks, -⟩
  refine ⟨signature, binding, link, lwe, signed, bound, linked, profile, ?_⟩
  intro key
  have others : ∀ {finding : Finding} {check : Check}, finding.Owned check ->
      key.check ≠ some check -> finding.moves key = 0 := fun owned other => owned.moves_eq_zero other
  have verdict : key.check ≠ none -> verdictMoves report.verified key = 0 := by
    intro owned
    unfold verdictMoves
    cases report.verified <;> cases key <;> simp_all [StatKey.check]
  rw [stats_of_report P ran key, checks]
  simp only [List.map_cons, List.map_nil, List.sum_cons, List.sum_nil]
  have signatureMoves := others (checkSignature_owned P signed)
  have bindingMoves := others (checkBinding_owned P bound)
  have linkMoves := others (checkLink_owned P linked)
  have lweMoves := others (checkLwe_owned P profile)
  have piiMoves := others (checkPii_owned P record)
  cases owner : key.check with
  | none =>
      rw [owner] at signatureMoves bindingMoves linkMoves lweMoves piiMoves
      rw [signatureMoves (by decide), bindingMoves (by decide), linkMoves (by decide),
        lweMoves (by decide), piiMoves (by decide)]
      dsimp only
      omega
  | some check =>
      rw [verdict (by rw [owner]; exact Option.some_ne_none check)]
      rw [owner] at signatureMoves bindingMoves linkMoves lweMoves piiMoves
      cases check with
      | signature =>
          rw [bindingMoves (by decide), linkMoves (by decide), lweMoves (by decide), piiMoves (by decide)]
          dsimp only
          omega
      | bindingHash =>
          rw [signatureMoves (by decide), linkMoves (by decide), lweMoves (by decide), piiMoves (by decide)]
          dsimp only
          omega
      | chainLink =>
          rw [signatureMoves (by decide), bindingMoves (by decide), lweMoves (by decide),
            piiMoves (by decide)]
          dsimp only
          omega
      | lweParams =>
          rw [signatureMoves (by decide), bindingMoves (by decide), linkMoves (by decide),
            piiMoves (by decide)]
          dsimp only
          omega
      | piiAssertion =>
          rw [signatureMoves (by decide), bindingMoves (by decide), linkMoves (by decide),
            lweMoves (by decide)]
          dsimp only
          omega

/-- A noted finding moves one of its two counters. -/
theorem moves_note (check : Check) (ok : Bool) (detail : PyStr) {okKey failKey : StatKey}
    (different : okKey ≠ failKey) :
    (note check ok detail okKey failKey).moves okKey +
      (note check ok detail okKey failKey).moves failKey = 1 := by
  unfold note Finding.moves
  cases ok <;> simp [different, different.symm]

/-- A report counts the record once, and keeps the balance. -/
theorem balanced_of_report {verifier after : ExternalVerifier} {record : Dict} {report : Report}
    (ran : verifyEnvelope P verifier record = (.ok report, after)) (balanced : Balanced verifier.stats) :
    after.stats .records = verifier.stats .records + 1 ∧ Balanced after.stats := by
  rcases stats_of_owner P ran with
    ⟨signature, binding, link, lwe, signed, -, linked, profile, moved⟩
  have signatureMoves : signature.moves .signatureOk + signature.moves .signatureFailed +
      signature.moves .signatureUnchecked = 1 := by
    unfold Finding.moves
    rw [(checkSignature_counter P signed).2]
    cases signature.status <;> rfl
  have linkMoves : link.moves .chainOk + link.moves .chainBroken = 1 := by
    unfold Finding.moves
    rw [(checkLink_counter P linked).2]
    by_cases pass : link.status = .pass <;> simp [pass]
  have lweMoves : lwe.moves .lweOk + lwe.moves .lweFailed = 1 := by
    unfold checkLwe at profile
    rcases bind_eq_ok_iff.mp profile with ⟨params, -, found⟩
    cases found
    exact moves_note _ _ _ (by decide)
  have piiMoves : (checkPii P record).moves .piiOk + (checkPii P record).moves .piiFailed = 1 :=
    moves_note _ _ _ (by decide)
  have counted : after.stats .records = verifier.stats .records + 1 := moved .records
  have verdicts : verdictMoves report.verified .verified + verdictMoves report.verified .failed = 1 := by
    cases report.verified <;> rfl
  rcases balanced with ⟨verdict, signatures, links, profiles, assertions⟩
  refine ⟨counted, ?_, ?_, ?_, ?_, ?_⟩
  · have positive := moved .verified
    have negative := moved .failed
    simp only [StatKey.check] at positive negative
    omega
  · have ok := moved .signatureOk
    have failed := moved .signatureFailed
    have unchecked := moved .signatureUnchecked
    simp only [StatKey.check] at ok failed unchecked
    omega
  · have ok := moved .chainOk
    have broken := moved .chainBroken
    simp only [StatKey.check] at ok broken
    omega
  · have ok := moved .lweOk
    have failed := moved .lweFailed
    simp only [StatKey.check] at ok failed
    omega
  · have ok := moved .piiOk
    have failed := moved .piiFailed
    simp only [StatKey.check] at ok failed
    omega

/-! ## Walks -/

/-- The number that is so much after a given one. -/
def numberAfter (seq : Json) (n : Int) : Option PyFloat := (seq.addInt n).toOption.bind Json.asNumber

/-- A number can be shown as an integer: it is finite, and has at most 4300 digits. -/
def Printable (number : PyFloat) : Prop := ∃ value, number = .finite value ∧ |value| < 10 ^ MAX_STR_DIGITS

/-- The number found is the one expected, or else the expected one can be shown. -/
def Continues (expected found : PyFloat) : Prop := (found = expected ∧ found ≠ .nan) ∨ Printable expected

/-- Two neighbours of a walk, by their numbers. -/
def Neighbours (record next : Dict) : Prop :=
  ∀ expected found, numberAfter (Dict.get record "seq" (.int 0)) 1 = some expected ->
    walkSeq next = some found -> Continues expected found

/-- The first record of a walk, which is to be one after the number before its own. -/
def Begins (first : Dict) : Prop :=
  ∀ start expected found, (Dict.get first "seq" (.int 1)).addInt (-1) = .ok start ->
    numberAfter start 1 = some expected -> walkSeq first = some found -> Continues expected found

/-- The records have the types that a walk needs to come to a report: each is
linkable and numbered, and in the order of the walk every number is the one
expected, or the expected one can be shown. -/
structure Walkable (records : List Dict) : Prop where
  linkable : ∀ record ∈ records, Linkable P record
  numbered : ∀ record ∈ records, (walkSeq record).isSome
  begins : ∀ sorted first, sortBySeq P records = .ok sorted -> sorted.head? = some first -> Begins first
  continues : ∀ sorted, sortBySeq P records = .ok sorted -> sorted.IsChain Neighbours

theorem sortBySeq_answers_iff (records : List Dict) :
    (∃ sorted, sortBySeq P records = .ok sorted) ↔ ∀ record ∈ records, (walkSeq record).isSome := by
  have own : ∀ record, (∃ entry, keyed record = .ok entry) ↔ (walkSeq record).isSome := by
    intro record
    simp only [keyed_eq_ok_iff, Option.isSome_iff_exists, Prod.exists]
    exact ⟨fun ⟨number, _, numbered, _⟩ => ⟨number, numbered⟩, fun ⟨number, numbered⟩ => ⟨number, _, numbered, rfl⟩⟩
  unfold sortBySeq
  simp only [← own, ← exists_mapM_iff, bind_eq_ok_iff]
  exact ⟨fun ⟨_, entries, all, _⟩ => ⟨entries, all⟩, fun ⟨entries, all⟩ => ⟨_, entries, all, rfl⟩⟩

/-- Two numbers are compared as numbers, whatever their types. -/
theorem eqScalar_of_numbers {left right : Json} {number other : PyFloat}
    (first : left.asNumber = some number) (second : right.asNumber = some other) :
    left.eqScalar right = decide (number = other ∧ number ≠ .nan) := by
  cases left with
  | null => cases first
  | str own => cases first
  | arr items => cases first
  | obj fields => cases first
  | _ => cases right <;> simp_all [Json.eqScalar]

/-- A number moved by an integer is a number. -/
theorem numberAfter_of_number {value : Json} {number : PyFloat} (numbered : value.asNumber = some number)
    (n : Int) : ∃ sum after, value.addInt n = .ok sum ∧ sum.asNumber = some after := by
  cases value with
  | null => cases numbered
  | str own => cases numbered
  | arr items => cases numbered
  | obj fields => cases numbered
  | bool own => exact ⟨_, _, rfl, rfl⟩
  | int own => exact ⟨_, _, rfl, rfl⟩
  | float own => exact ⟨_, _, rfl, rfl⟩

theorem numberAfter_eq_some_iff {seq : Json} {n : Int} {number : PyFloat} :
    numberAfter seq n = some number ↔ ∃ sum, seq.addInt n = .ok sum ∧ sum.asNumber = some number := by
  unfold numberAfter
  cases seq.addInt n with
  | error error => simp [Except.toOption]
  | ok sum => simp [Except.toOption]

/-- An integer part is as long as its number. -/
theorem natAbs_truncated_lt_iff (value : ℚ) (bound : Nat) :
    (if 0 ≤ value then ⌊value⌋ else ⌈value⌉).natAbs < bound ↔ |value| < bound := by
  have below : ∀ {x : ℚ}, 0 ≤ x -> (⌊x⌋.natAbs < bound ↔ x < bound) := by
    intro x nonneg
    have floor : 0 ≤ ⌊x⌋ := Int.floor_nonneg.mpr nonneg
    rw [← Int.ofNat_lt, Int.natAbs_of_nonneg floor, Int.floor_lt]
    norm_cast
  split
  · next nonneg => rw [abs_of_nonneg nonneg, below nonneg]
  · next negative =>
      have positive : 0 ≤ -value := by linarith
      rw [abs_of_neg (not_le.mp negative), ← below positive, Int.floor_neg, Int.natAbs_neg]

/-- A number is formatted where it is finite and not too long. -/
theorem formatInt_answers_iff {value : Json} {number : PyFloat} (numbered : value.asNumber = some number) :
    (∃ shown, formatInt P value = .ok shown) ↔ Printable number := by
  have told : (∃ shown, formatInt P value = .ok shown) ↔
      ∃ own, P.int value = .ok own ∧ own.natAbs < 10 ^ MAX_STR_DIGITS := by
    unfold formatInt
    simp only [bind_eq_ok_iff]
    constructor
    · rintro ⟨shown, own, truncated, formatted⟩
      refine ⟨own, truncated, ?_⟩
      by_contra long
      rw [if_neg long] at formatted
      cases formatted
    · rintro ⟨own, truncated, short⟩
      exact ⟨_, own, truncated, if_pos short⟩
  rw [told]
  unfold Printable
  cases value with
  | null => cases numbered
  | str own => cases numbered
  | arr items => cases numbered
  | obj fields => cases numbered
  | bool own =>
      cases numbered
      have bound : (1 : ℚ) < 10 ^ MAX_STR_DIGITS := one_lt_pow₀ (by norm_num) (by decide)
      refine iff_of_true ⟨_, rfl, ?_⟩ ⟨_, rfl, ?_⟩
      · cases own
        · exact Nat.pow_pos (by decide)
        · exact_mod_cast bound
      · cases own
        · simp
        · simpa using bound
  | int own =>
      cases numbered
      simp only [Platform.int, Except.ok.injEq, PyFloat.finite.injEq, exists_eq_left']
      rw [← Int.ofNat_lt, Int.natCast_natAbs]
      exact_mod_cast Iff.rfl
  | float own =>
      cases numbered
      cases number with
      | finite value =>
          simp only [Platform.int, Except.ok.injEq, PyFloat.finite.injEq, exists_eq_left']
          rw [natAbs_truncated_lt_iff]
          push_cast
          exact Iff.rfl
      | _ => simp [Platform.int]

/-- The check for a gap raises exactly where the expected number is missed and cannot be shown. -/
theorem sequenceGap_answers_iff {prevSeq seq : Json} {expected found : PyFloat}
    (after : numberAfter prevSeq 1 = some expected) (here : seq.asNumber = some found) (txnId : Json) :
    (∃ gap, sequenceGap P prevSeq seq txnId = .ok gap) ↔ Continues expected found := by
  rcases numberAfter_eq_some_iff.mp after with ⟨next, added, numbered⟩
  have shown := formatInt_answers_iff P numbered
  have compared := eqScalar_of_numbers here numbered
  unfold sequenceGap Continues
  simp only [added, bind, Except.bind]
  by_cases same : found = expected ∧ found ≠ .nan
  · rw [compared, decide_eq_true same, if_pos rfl]
    exact iff_of_true ⟨_, rfl⟩ (Or.inl same)
  · rw [compared, decide_eq_false same, if_neg Bool.false_ne_true, or_iff_right same, ← shown]
    cases told : formatInt P next with
    | error error => simp
    | ok text => exact iff_of_true ⟨_, rfl⟩ ⟨_, rfl⟩

/-- A round of the walk needs the link of its record and the number before it. -/
theorem walkStep_answers_iff (reason : String) {walk : Walk} {record : Dict} {expected found : PyFloat}
    (after : numberAfter walk.prevSeq 1 = some expected) (here : walkSeq record = some found) :
    (∃ next, walkStep P reason walk record = .ok next) ↔ Linkable P record ∧ Continues expected found := by
  rw [linkable_iff, ← sequenceGap_answers_iff P after here (Dict.get record "txn_id" .null)]
  unfold walkStep computeChainHash envelopeLink
  simp only [bind_eq_ok_iff]
  constructor
  · rintro ⟨next, _, ⟨preimage, linked, -⟩, gap, told, -⟩
    exact ⟨⟨preimage, linked⟩, gap, told⟩
  · rintro ⟨⟨preimage, linked⟩, gap, told⟩
    exact ⟨_, _, ⟨preimage, linked, rfl⟩, gap, told, rfl⟩

theorem prevSeq_of_walkStep {reason : String} {walk after : Walk} {record : Dict}
    (stepped : walkStep P reason walk record = .ok after) :
    after.prevSeq = Dict.get record "seq" (.int 0) := by
  unfold walkStep at stepped
  rcases bind_eq_ok_iff.mp stepped with ⟨_, -, rest⟩
  rcases bind_eq_ok_iff.mp rest with ⟨_, -, same⟩
  cases same
  rfl

theorem neighbours_iff {record next : Dict} {expected : PyFloat}
    (after : numberAfter (Dict.get record "seq" (.int 0)) 1 = some expected) :
    Neighbours record next ↔ ∀ found, walkSeq next = some found -> Continues expected found := by
  constructor
  · intro neighbours found numbered
    exact neighbours expected found after numbered
  · intro follows other found own numbered
    rw [after] at own
    cases own
    exact follows found numbered

/-- A walk over numbered records comes to its end exactly if every record is
linkable and every number continues the one before it. -/
theorem rounds_answer_iff (reason : String) {records : List Dict}
    (numbered : ∀ record ∈ records, (walkSeq record).isSome) {walk : Walk} {expected : PyFloat}
    (after : numberAfter walk.prevSeq 1 = some expected) :
    (∃ final, records.foldlM (walkStep P reason) walk = .ok final) ↔
      (∀ record ∈ records, Linkable P record) ∧
        (∀ first ∈ records.head?, ∀ found, walkSeq first = some found -> Continues expected found) ∧
        records.IsChain Neighbours := by
  induction records generalizing walk expected with
  | nil =>
      refine ⟨fun _ => ⟨?_, ?_, List.IsChain.nil⟩, fun _ => ⟨walk, rfl⟩⟩
      · exact fun _ member => (List.not_mem_nil member).elim
      · intro first isHead
        cases isHead
  | cons record rest inductionHypothesis =>
      rw [List.forall_mem_cons] at numbered
      rcases Option.isSome_iff_exists.mp numbered.1 with ⟨found, own⟩
      have round := walkStep_answers_iff P reason after own
      rw [List.forall_mem_cons, List.isChain_cons, List.foldlM_cons]
      simp only [bind_eq_ok_iff, List.head?_cons, Option.mem_def, Option.some.injEq, forall_eq']
      have next : ∀ moved, walkStep P reason walk record = .ok moved ->
          ((∃ final, rest.foldlM (walkStep P reason) moved = .ok final) ↔
            (∀ record ∈ rest, Linkable P record) ∧
              (∀ first ∈ rest.head?, Neighbours record first) ∧ rest.IsChain Neighbours) := by
        intro moved stepped
        rcases numberAfter_of_number own 1 with ⟨sum, expectedAfter, added, numberedAfter⟩
        have follows := numberAfter_eq_some_iff.mpr ⟨sum, added, numberedAfter⟩
        have same := prevSeq_of_walkStep P stepped
        rw [inductionHypothesis numbered.2 (by rw [same]; exact follows)]
        simp only [neighbours_iff follows]
      constructor
      · rintro ⟨final, moved, stepped, rounds⟩
        rcases round.mp ⟨moved, stepped⟩ with ⟨linkable, continues⟩
        rcases (next moved stepped).mp ⟨final, rounds⟩ with ⟨others, heads, chain⟩
        refine ⟨⟨linkable, others⟩, ?_, heads, chain⟩
        intro other same
        rw [own] at same
        cases same
        exact continues
      · rintro ⟨⟨linkable, others⟩, continues, heads, chain⟩
        rcases round.mpr ⟨linkable, continues found own⟩ with ⟨moved, stepped⟩
        rcases (next moved stepped).mpr ⟨others, heads, chain⟩ with ⟨final, rounds⟩
        exact ⟨final, moved, stepped, rounds⟩

/-- The number a walk starts from is one, and so is the number it expects first. -/
theorem start_of_walk {first : Dict} {number : PyFloat} (numbered : walkSeq first = some number) :
    ∃ start expected, (Dict.get first "seq" (.int 1)).addInt (-1) = .ok start ∧
      numberAfter start 1 = some expected := by
  have own : ∃ number, (Dict.get first "seq" (.int 1)).asNumber = some number := by
    unfold walkSeq Dict.get at numbered
    unfold Dict.get
    cases found : Dict.find first "seq" with
    | none => exact ⟨_, rfl⟩
    | some value =>
        rw [found] at numbered
        exact ⟨number, numbered⟩
  rcases own with ⟨own, shown⟩
  rcases numberAfter_of_number shown (-1) with ⟨start, before, subtracted, startNumber⟩
  rcases numberAfter_of_number startNumber 1 with ⟨sum, expected, added, sumNumber⟩
  exact ⟨start, expected, subtracted, numberAfter_eq_some_iff.mpr ⟨sum, added, sumNumber⟩⟩

/-- In the order of the walk: it comes to a report exactly if every record is linkable, the
first number is one, and every number continues the one before it. -/
theorem walkChain_sorted_iff (reason detail : String) {records sorted : List Dict}
    (order : sortBySeq P records = .ok sorted) (numbered : ∀ record ∈ sorted, (walkSeq record).isSome) :
    (∃ report, walkChain P reason detail records = .ok report) ↔
      (∀ record ∈ sorted, Linkable P record) ∧
        (∀ first ∈ sorted.head?, Begins first) ∧ sorted.IsChain Neighbours := by
  unfold walkChain
  simp only [order, bind, Except.bind]
  cases sorted with
  | nil =>
      refine iff_of_true ⟨_, rfl⟩ ⟨?_, ?_, List.IsChain.nil⟩
      · exact fun _ member => (List.not_mem_nil member).elim
      · intro first isHead
        cases isHead
  | cons first rest =>
      rcases Option.isSome_iff_exists.mp (numbered first List.mem_cons_self) with ⟨number, own⟩
      rcases start_of_walk own with ⟨start, expected, subtracted, after⟩
      have rounds : (∃ final, (first :: rest).foldlM (walkStep P reason)
          ⟨[], Dict.get first "prev_chain_hash" (.str GENESIS_HASH), start⟩ = .ok final) ↔ _ :=
        rounds_answer_iff P reason numbered after
      have begins : (∀ head ∈ (first :: rest).head?, ∀ found, walkSeq head = some found ->
          Continues expected found) ↔ ∀ head ∈ (first :: rest).head?, Begins head := by
        simp only [List.head?_cons, Option.mem_def, Option.some.injEq, forall_eq', Begins, subtracted,
          Except.ok.injEq]
        constructor
        · rintro all other follows found rfl own
          rw [after] at own
          cases own
          exact all found
        · exact fun all found => all start expected found rfl after
      rw [begins] at rounds
      rw [← rounds]
      simp only [List.head?_cons, List.getLast?_cons, subtracted]
      constructor
      · rintro ⟨report, ran⟩
        split at ran
        · cases ran
        · next final walked => exact ⟨final, walked⟩
      · rintro ⟨final, walked⟩
        rw [walked]
        exact ⟨_, rfl⟩

/-- A walk comes to a report exactly on walkable records. -/
theorem walkChain_answers_iff (reason detail : String) (records : List Dict) :
    (∃ report, walkChain P reason detail records = .ok report) ↔ Walkable P records := by
  have numbered := sortBySeq_answers_iff P records
  constructor
  · intro answered
    rcases answered with ⟨report, ran⟩
    rcases bind_eq_ok_iff.mp ran with ⟨sorted, order, -⟩
    have all := numbered.mp ⟨sorted, order⟩
    have perm := perm_of_sortBySeq P order
    rcases (walkChain_sorted_iff P reason detail order
      fun record member => all record (perm.mem_iff.mp member)).mp ⟨report, ran⟩ with
      ⟨linkable, begins, continues⟩
    refine ⟨fun record member => linkable record (perm.mem_iff.mpr member), all, ?_, ?_⟩
    · intro other first same isHead
      rw [order] at same
      cases same
      exact begins first isHead
    · intro other same
      rw [order] at same
      cases same
      exact continues
  · intro walkable
    rcases numbered.mpr walkable.numbered with ⟨sorted, order⟩
    have perm := perm_of_sortBySeq P order
    apply (walkChain_sorted_iff P reason detail order
      fun record member => walkable.numbered record (perm.mem_iff.mp member)).mpr
    refine ⟨fun record member => walkable.linkable record (perm.mem_iff.mp member), ?_,
      walkable.continues sorted order⟩
    intro first isHead
    exact walkable.begins sorted first order isHead

/-! ## Runs -/

/-- An envelope is answered by a report, and is counted once. -/
def Reported (verifier : ExternalVerifier) (record : Dict) : Prop :=
  (∃ report, (verifyEnvelope P verifier record).1 = .ok report) ∧
    (verifyEnvelope P verifier record).2.stats .records = verifier.stats .records + 1

/-- Every envelope among the actions is answerable under the key of that moment. -/
def WellTyped (verifier : ExternalVerifier) (actions : List Action) : Prop :=
  Machine.Along (act P)
    (fun verifier action => ∀ record, action = .verifyEnvelope record -> Answerable P verifier.pubkey record)
    verifier actions

theorem reported_iff {verifier : ExternalVerifier} (balanced : Balanced verifier.stats) (record : Dict) :
    Reported P verifier record ↔ Answerable P verifier.pubkey record := by
  rw [← answers_iff_answerable]
  constructor
  · exact And.left
  · rintro ⟨report, answered⟩
    have ran : verifyEnvelope P verifier record = (.ok report, (verifyEnvelope P verifier record).2) := by
      rw [← answered]
    exact ⟨⟨report, answered⟩, (balanced_of_report P ran balanced).1⟩

/-- An action whose envelope is answerable keeps the balance. -/
theorem balanced_act {verifier : ExternalVerifier} {action : Action} (balanced : Balanced verifier.stats)
    (answerable : ∀ record, action = .verifyEnvelope record -> Answerable P verifier.pubkey record) :
    Balanced (act P verifier action).2.stats := by
  cases action with
  | setPublicKey pubkeyB64 => exact balanced
  | resetChain => exact balanced
  | verifyEnvelope record =>
      rcases (answers_iff_answerable P verifier record).mpr (answerable record rfl) with ⟨report, answered⟩
      have ran : verifyEnvelope P verifier record =
          (.ok report, (verifyEnvelope P verifier record).2) := by
        rw [← answered]
      exact (balanced_of_report P ran balanced).2

theorem balanced_new (pubkeyB64 : Json) : Balanced (ExternalVerifier.new pubkeyB64).stats :=
  ⟨rfl, rfl, rfl, rfl, rfl⟩

/-- A run of well-typed records balances in every state. -/
theorem balanced_of_wellTyped {pubkeyB64 : Json} {actions : List Action}
    (wellTyped : WellTyped P (.new pubkeyB64) actions) :
    ∀ seen, seen <+: actions -> Balanced (reached P (.new pubkeyB64) seen).stats :=
  Machine.invariant_of_along (fun verifier => Balanced verifier.stats)
    (fun _ _ => balanced_act P) (balanced_new pubkeyB64) wellTyped

/-- In every run of a verifier, every envelope is reported and counted once and
the counters balance in every state, exactly if every envelope is answerable
under the key it meets.  The walk over a buffer comes to a report exactly if
the records in it are walkable. -/
theorem malformed_records_iff (pubkeyB64 : Json) (actions : List Action) :
    (((∀ seen record, seen ++ [.verifyEnvelope record] <+: actions ->
        Reported P (reached P (.new pubkeyB64) seen) record) ∧
      ∀ seen, seen <+: actions -> Balanced (reached P (.new pubkeyB64) seen).stats) ↔
        WellTyped P (.new pubkeyB64) actions) ∧
    ∀ (board : Api.Dashboard) (n : Int),
      (∃ report, board.chainVerify P n = .ok report) ↔ Walkable P (board.committed n) := by
  refine ⟨⟨?_, ?_⟩, fun board n => walkChain_answers_iff P _ _ _⟩
  · rintro ⟨reports, balances⟩
    apply (Machine.along_iff_steps _ _).mpr
    rintro seen action before record rfl
    have balanced := balances seen ((List.prefix_append seen _).trans before)
    exact (reported_iff P balanced record).mp (reports seen record before)
  · intro wellTyped
    have balances := balanced_of_wellTyped P wellTyped
    refine ⟨?_, balances⟩
    intro seen record before
    have balanced := balances seen ((List.prefix_append seen _).trans before)
    exact (reported_iff P balanced record).mpr
      ((Machine.along_iff_steps _ _).mp wellTyped seen _ before record rfl)

/-- A record whose predecessor is null. -/
def nullPredecessor : Dict :=
  [(PyStr.ofString "txn_id", Json.text "TXN-1"), (PyStr.ofString "prev_chain_hash", .null)]

/-- It raises, it is counted as unchecked and as nothing else, and the walk over
a buffer that holds it raises as well. -/
theorem nullPredecessor_raises :
    ¬Reported samplePlatform (.new .null) nullPredecessor ∧
    ¬Balanced (reached samplePlatform (.new .null) [.verifyEnvelope nullPredecessor]).stats ∧
    ∃ board : Api.Dashboard, board.committed 500 = [nullPredecessor] ∧
      ¬∃ report, board.chainVerify samplePlatform 500 = .ok report := by
  have notLinkable : ¬Linkable samplePlatform nullPredecessor := by
    rintro ⟨prev, binding, id, hasPrev, -⟩
    cases hasPrev
  refine ⟨?_, ?_, ?_⟩
  · intro reported
    exact notLinkable ((reported_iff _ (balanced_new .null) _).mp reported).linkable
  · intro balanced
    exact absurd balanced.signature (by decide +kernel)
  · refine ⟨{ Api.Dashboard.started with
      consumer := some { Kafka.VerifierKafkaConsumer.new Kafka.BUFFER_SIZE with
        committedBuffer := Kafka.RingBuffer.empty.push nullPredecessor } }, rfl, ?_⟩
    intro answers
    have walkable := (walkChain_answers_iff samplePlatform _ _ _).mp answers
    exact notLinkable (walkable.linkable nullPredecessor List.mem_cons_self)

end Verify
end ZeroAudit
