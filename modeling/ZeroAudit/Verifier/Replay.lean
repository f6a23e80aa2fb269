import ZeroAudit.Chain.History
import ZeroAudit.Chain.Soundness
import ZeroAudit.Verifier.Exposure

namespace ZeroAudit
namespace Api

open Foundation Verify Kafka Signature Commitment

/-!
# Redelivered envelopes (`verifier/dashboard.py`, `verifier/kafka_client/consumer.py`)

A consumer that reconnects before its offsets are committed reads the topic
again from an earlier offset.  The verifier keeps the hash of the last record
it accepted across the reconnect, since nothing calls `reset_chain`, and a
record that was heard before does not name that hash.  So the first envelope
after a jump back is reported as broken, although it is honest and was reported
as verified before.
-/

variable (P : Platform)

/-! ## Deliveries -/

/-- The offsets of a consumer that reads in order from `due`, but may at any time
go back to an offset it has read and continue in order from there. -/
def Resumes : Nat -> List Nat -> Prop
  | _, [] => True
  | due, offset :: rest => offset ≤ due ∧ Resumes (offset + 1) rest

/-- What is delivered from the offset of a topic. -/
def envelopeAt (records : List CommitmentRecord) (offset : Fin records.length) : Dict :=
  records[offset].toExportDict

/-- No alarm at this delivery: the envelope is reported as verified, the counters
of alarms are at zero, and no report that is kept turns from verified to not
verified. -/
structure Silent (reports : Reports) (envelope : Dict) : Prop where
  verified : ∃ report, (recordVerification P reports envelope).1 = .ok report ∧ report.verified = true
  chainBroken : (recordVerification P reports envelope).2.verifier.stats .chainBroken = 0
  failed : (recordVerification P reports envelope).2.verifier.stats .failed = 0
  kept : ∀ txnId earlier later, lookup reports.latest txnId = .ok (some earlier) ->
    lookup (recordVerification P reports envelope).2.latest txnId = .ok (some later) ->
    earlier.verified = true -> later.verified = true

/-- The service before the first delivery, with the prover's key installed. -/
def Reports.fresh (key : SigningKey) : Reports :=
  { verifier := .new (.str (key.publicKeyB64 P))
    latest := [] }

/-! ## What is kept -/

theorem forall_assignEntry {V : Type} {good : V -> Prop} (key : Json) {value : V}
    {entries : List (Json × V)} (before : ∀ entry ∈ entries, good entry.2) (assigned : good value) :
    ∀ entry ∈ assignEntry key value entries, good entry.2 := by
  induction entries with
  | nil =>
      intro entry member
      rw [List.mem_singleton.mp member]
      exact assigned
  | cons first rest inductionHypothesis =>
      rw [List.forall_mem_cons] at before
      unfold assignEntry
      split
      · rw [List.forall_mem_cons]
        exact ⟨assigned, before.2⟩
      · rw [List.forall_mem_cons]
        exact ⟨before.1, inductionHypothesis before.2⟩

theorem mem_of_lookup {V : Type} {entries : List (Json × V)} {key : Json} {value : V}
    (found : lookup entries key = .ok (some value)) : ∃ own, (own, value) ∈ entries := by
  unfold lookup at found
  rcases bind_eq_ok_iff.mp found with ⟨_, -, same⟩
  rcases Option.map_eq_some_iff.mp (Except.ok.inj same) with ⟨⟨own, other⟩, here, rfl⟩
  exact ⟨own, List.mem_of_find?_eq_some here⟩

/-- A verdict moves no alarm counter unless it is one. -/
theorem failed_of_verified {verifier after : ExternalVerifier} {record : Dict} {report : Report}
    (ran : verifyEnvelope P verifier record = (.ok report, after)) (positive : report.verified = true) :
    after.stats .failed = verifier.stats .failed := by
  rcases verifyEnvelope_report P ran with
    ⟨signature, binding, link, lwe, signed, bound, linked, profile, checks, -⟩
  rw [stats_of_report P ran, checks, positive]
  simp only [List.map_cons, List.map_nil, List.sum_cons, List.sum_nil,
    (checkSignature_owned P signed).moves_eq_zero
      (by decide : StatKey.check .failed ≠ some .signature),
    (checkBinding_owned P bound).moves_eq_zero
      (by decide : StatKey.check .failed ≠ some .bindingHash),
    (checkLink_owned P linked).moves_eq_zero
      (by decide : StatKey.check .failed ≠ some .chainLink),
    (checkLwe_owned P profile).moves_eq_zero
      (by decide : StatKey.check .failed ≠ some .lweParams),
    (checkPii_owned P record).moves_eq_zero
      (by decide : StatKey.check .failed ≠ some .piiAssertion)]
  rfl

/-- A record with a text for its id is retained under it. -/
theorem recordVerification_of_str (reports : Reports) {envelope : Dict} {txnId : PyStr}
    (named : Dict.get envelope "txn_id" (Json.text "") = .str txnId) :
    (recordVerification P reports envelope).1 = (verifyEnvelope P reports.verifier envelope).1 ∧
      (recordVerification P reports envelope).2.verifier =
        (verifyEnvelope P reports.verifier envelope).2 ∧
      ∀ report, (verifyEnvelope P reports.verifier envelope).1 = .ok report ->
        ∀ good : Report -> Prop, good report -> (∀ entry ∈ reports.latest, good entry.2) ->
          ∀ entry ∈ (recordVerification P reports envelope).2.latest, good entry.2 := by
  unfold recordVerification
  rcases verifyEnvelope P reports.verifier envelope with ⟨error | report, after⟩
  · exact ⟨rfl, rfl, fun _ answered => by cases answered⟩
  · simp only [named, assign, hashable, bind, Except.bind, pure, Except.pure]
    refine ⟨trivial, trivial, ?_⟩
    intro own answered good holds before
    cases answered
    apply forall_assignEntry _ _ holds
    intro entry member
    split at member
    · exact before entry (List.mem_of_mem_drop member)
    · exact before entry member

/-! ## The state after the first records -/

/-- The service has heard this many records in order, and raised no alarm. -/
structure Caught (key : SigningKey) (records : List CommitmentRecord) (heard : Nat)
    (reports : Reports) : Prop where
  installed : reports.verifier.pubkey = .str (key.publicKeyB64 P)
  expects : heard = 0 ∧ reports.verifier.expectedPrev = none ∨
    ∃ place, ∃ inside : place < records.length, heard = place + 1 ∧
      reports.verifier.expectedPrev = some records[place].chainHash
  chainBroken : reports.verifier.stats .chainBroken = 0
  failed : reports.verifier.stats .failed = 0
  kept : ∀ entry ∈ reports.latest, entry.2.verified = true

section Stream

variable {P} {key : SigningKey} {records : List CommitmentRecord}

theorem caught_fresh : Caught P key records 0 (.fresh P key) :=
  ⟨rfl, Or.inl ⟨rfl, rfl⟩, rfl, rfl, fun _ member => (List.not_mem_nil member).elim⟩

variable (honest : ∀ record ∈ records, HonestRecord P key record) {before : PyStr}
  (linked : LinkChain.Linked CommitmentRecord.prevChainHash CommitmentRecord.chainHash before records)
include honest linked

/-- The record that is due is verified, and the service has then heard one more. -/
theorem caught_of_due {heard : Nat} {reports : Reports} (caught : Caught P key records heard reports)
    (inside : heard < records.length) :
    Silent P reports records[heard].toExportDict ∧
      Caught P key records (heard + 1)
        (recordVerification P reports records[heard].toExportDict).2 := by
  have own := honest _ (List.getElem_mem inside)
  have expects : reports.verifier.expectedPrev = none ∨
      reports.verifier.expectedPrev = some records[heard].prevChainHash := by
    rcases caught.expects with ⟨-, nothing⟩ | ⟨place, placed, rfl, named⟩
    · exact Or.inl nothing
    · have follows := LinkChain.prev_getElem linked inside
      rw [List.getElem?_cons_succ, List.getElem?_map, List.getElem?_eq_getElem placed] at follows
      exact Or.inr (named.trans follows.symm)
  rcases verifyEnvelope_export P own caught.installed expects with
    ⟨⟨report, answered, positive, -, -⟩, samekey, moved, unbroken⟩
  rcases own.txnId with ⟨txnId, named⟩
  rcases recordVerification_of_str P reports
    ((export_txnId records[heard] (Json.text "")).trans named) with ⟨sameAnswer, sameVerifier, retained⟩
  have ran : verifyEnvelope P reports.verifier records[heard].toExportDict =
      (.ok report, (verifyEnvelope P reports.verifier records[heard].toExportDict).2) := by
    rw [← answered]
  have kept := retained report answered (fun report => report.verified = true) positive caught.kept
  have chainBroken : (recordVerification P reports records[heard].toExportDict).2.verifier.stats
      .chainBroken = 0 := by
    rw [sameVerifier, unbroken, caught.chainBroken]
  have failed : (recordVerification P reports records[heard].toExportDict).2.verifier.stats
      .failed = 0 := by
    rw [sameVerifier, failed_of_verified P ran positive, caught.failed]
  refine ⟨⟨⟨report, sameAnswer.trans answered, positive⟩, chainBroken, failed, ?_⟩,
    ⟨?_, Or.inr ⟨heard, inside, rfl, ?_⟩, chainBroken, failed, kept⟩⟩
  · intro txnId earlier later _ found _
    rcases mem_of_lookup found with ⟨own, member⟩
    exact kept _ member
  · rw [sameVerifier, samekey, caught.installed]
  · rw [sameVerifier, moved]

variable (start : IsDigest before) (collisionFree : Set.InjOn P.sha3 (LinkBytes P records))
  (fresh : ∀ record ∈ records, record.chainHash ≠ before)
include start collisionFree fresh

/-- A record that was heard before is reported as not verified. -/
theorem due_of_silent {heard offset : Nat} {reports : Reports}
    (caught : Caught P key records heard reports) (inside : offset < records.length)
    (delivered : offset ≤ heard) (silent : Silent P reports records[offset].toExportDict) :
    offset = heard := by
  by_contra different
  rcases caught.expects with ⟨rfl, -⟩ | ⟨place, placed, rfl, waiting⟩
  · omega
  · rcases (honest _ (List.getElem_mem inside)).txnId with ⟨txnId, named⟩
    rcases recordVerification_of_str P reports
      ((export_txnId records[offset] (Json.text "")).trans named) with ⟨sameAnswer, -, -⟩
    rcases silent.verified with ⟨report, answered, positive⟩
    rw [sameAnswer] at answered
    have ran : verifyEnvelope P reports.verifier records[offset].toExportDict =
        (.ok report, (verifyEnvelope P reports.verifier records[offset].toExportDict).2) := by
      rw [← answered]
    have follows := ((linkPasses_iff P _ _).mp (fields_of_verified P ran positive).1).2 _ waiting
    rw [export_prevChainHash] at follows
    exact LinkChain.prev_ne_digest linked
      (prev_of_chainHash P (fun record member => ⟨key, honest record member⟩) linked start collisionFree)
      fresh (by omega : offset ≤ place) placed (Json.str.inj follows)

/-- From a service that has heard some records, deliveries go without an alarm
exactly if they continue in order. -/
theorem silent_along_iff {heard : Nat} {reports : Reports}
    (caught : Caught P key records heard reports) (offsets : List (Fin records.length))
    (resumes : Resumes heard (offsets.map Fin.val)) :
    Machine.Along (recordVerification P) (Silent P) reports (offsets.map (envelopeAt records)) ↔
      offsets.map Fin.val = List.range' heard offsets.length := by
  induction offsets generalizing heard reports with
  | nil => simp [Machine.Along]
  | cons offset rest inductionHypothesis =>
      rcases resumes with ⟨delivered, later⟩
      rw [List.map_cons, List.map_cons, List.length_cons, List.range'_succ, List.cons.injEq]
      constructor
      · rintro ⟨silent, along⟩
        have due := due_of_silent honest linked start collisionFree fresh caught offset.isLt delivered
          silent
        subst due
        have next := (caught_of_due honest linked caught offset.isLt).2
        exact ⟨rfl, (inductionHypothesis next later).mp along⟩
      · rintro ⟨due, inOrder⟩
        subst due
        rcases caught_of_due honest linked caught offset.isLt with ⟨silent, next⟩
        exact ⟨silent, (inductionHypothesis next later).mpr inOrder⟩

end Stream
/-! ## Deliveries of a whole ledger -/

/-- Whatever the ledger and whatever the consumer does, no alarm is raised exactly
if the consumer never goes back. -/
theorem no_false_alarm_iff {L : Type} (calls : LedgerCalls L) (store : CommitmentStore L)
    {adds : List AddCall} (typed : ∀ call ∈ adds, Regular call) (head : IsDigest store.head)
    (collisionFree : Set.InjOn P.sha3 (LinkBytes P (appended P calls store adds).1))
    (fresh : ∀ record ∈ (appended P calls store adds).1, record.chainHash ≠ store.head)
    (offsets : List (Fin (appended P calls store adds).1.length))
    (resumes : Resumes 0 (offsets.map Fin.val)) :
    Machine.Along (recordVerification P) (Silent P) (.fresh P store.signingKey)
        (offsets.map (envelopeAt (appended P calls store adds).1)) ↔
      offsets.map Fin.val = List.range offsets.length := by
  rcases linked_appended P store calls typed with ⟨linked, honest⟩
  rw [List.range_eq_range']
  exact silent_along_iff honest linked head collisionFree fresh caught_fresh offsets resumes

/-! ## Deliveries through the consumer -/

/-- The consumer hands an honest envelope of the committed topic to the callback. -/
theorem reports_deliver {key : SigningKey} {record : CommitmentRecord}
    (honest : HonestRecord P key record) (readable : hasReadableTimestamp P record.toExportDict = true)
    {board : Dashboard} (up : board.consumer.isSome = true) (now : ℚ) :
    (board.deliver P ⟨.committed, .obj record.toExportDict, now⟩).reports =
      (recordVerification P board.reports record.toExportDict).2 := by
  have zero : (Dict.get record.toExportDict "pii_bytes" (.int 0)).eqInt 0 = true := by
    rw [export_piiBytes, honest.piiBytes]
    rfl
  have examined : examines P ⟨.committed, .obj record.toExportDict, now⟩ = some record.toExportDict := by
    unfold examines admits
    simp only [zero, readable, Bool.and_self, if_true]
  rw [Dashboard.reports_deliver P up, examined]

/-! ## The same envelope twice -/

/-- The links of the sample ledger do not collide, and none of them hashes to its start. -/
theorem sample_topic :
    ∃ first second, (appended samplePlatform sampleCalls sampleStore sampleAdds).1 = [first, second] ∧
      LinkChain.Linked CommitmentRecord.prevChainHash CommitmentRecord.chainHash sampleStore.head [first, second] ∧
      (∀ record ∈ [first, second], HonestRecord samplePlatform sampleStore.signingKey record) ∧
      Set.InjOn samplePlatform.sha3 (LinkBytes samplePlatform [first, second]) ∧
      ∀ record ∈ [first, second], record.chainHash ≠ sampleStore.head := by
  rcases ledger_sampleAdds with ⟨links, first, second, blob, traced, added, lengths, -⟩
  have chain := linked_appended samplePlatform sampleStore sampleCalls regular_sampleAdds
  rw [added] at chain
  refine ⟨first, second, added, chain.1, chain.2, ?_, ?_⟩
  · refine Sample.injOn_of_lengths (lengths ▸ (by decide) :
      (((links.map Link.preimage ++ [blob]).map List.length).map (· % 256)).Nodup) ?_
    intro message own
    rw [← added] at own
    rcases trace_of_linkBytes samplePlatform head_sampleStore own with ⟨link, member, rfl⟩
    rw [traced] at member
    exact List.mem_append_left _ (List.mem_map_of_mem member)
  · intro record member
    rcases (chain.2 record member).link with ⟨preimage, -, chained⟩
    rw [chained, head_sampleStore]
    exact Sample.sha3Hex_ne_genesis preimage

/-- Delivered in order, the two records raise no alarm. -/
theorem no_false_alarm_iff_sample :
    ∃ offsets : List (Fin (appended samplePlatform sampleCalls sampleStore sampleAdds).1.length),
      offsets.map Fin.val = [0, 1] ∧
        Machine.Along (recordVerification samplePlatform) (Silent samplePlatform)
          (.fresh samplePlatform sampleStore.signingKey) (offsets.map (envelopeAt _)) := by
  rcases sample_topic with ⟨first, second, added, -, -, collisionFree, fresh⟩
  have two : (appended samplePlatform sampleCalls sampleStore sampleAdds).1.length = 2 := congrArg List.length added
  rw [← added] at collisionFree fresh
  have resumes : Resumes 0 [0, 1] := ⟨le_rfl, le_rfl, trivial⟩
  refine ⟨[⟨0, by omega⟩, ⟨1, by omega⟩], rfl, ?_⟩
  exact (no_false_alarm_iff samplePlatform sampleCalls sampleStore regular_sampleAdds
    (head_sampleStore ▸ isDigest_genesis) collisionFree fresh [⟨0, by omega⟩, ⟨1, by omega⟩] resumes).mpr rfl

/-- Delivered twice, the first record of a ledger raises an alarm. -/
theorem redelivery_alarms :
    ¬∀ offsets : List (Fin (appended samplePlatform sampleCalls sampleStore sampleAdds).1.length),
      Resumes 0 (offsets.map Fin.val) ->
        Machine.Along (recordVerification samplePlatform) (Silent samplePlatform)
          (.fresh samplePlatform sampleStore.signingKey) (offsets.map (envelopeAt _)) := by
  intro silent
  rcases sample_topic with ⟨first, second, added, linked, honest, collisionFree, fresh⟩
  rw [added] at silent
  have start : IsDigest sampleStore.head := head_sampleStore ▸ isDigest_genesis
  have resumes : Resumes 0 [0, 0] := ⟨le_rfl, Nat.zero_le 1, trivial⟩
  have along := silent [⟨0, Nat.two_pos⟩, ⟨0, Nat.two_pos⟩] resumes
  have inOrder : [0, 0] = List.range' 0 2 :=
    (silent_along_iff honest linked start collisionFree fresh caught_fresh
      [⟨0, Nat.two_pos⟩, ⟨0, Nat.two_pos⟩] resumes).mp along
  exact absurd inOrder (by decide)

end Api
end ZeroAudit
