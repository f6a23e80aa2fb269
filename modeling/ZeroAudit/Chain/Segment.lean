import ZeroAudit.Chain.Walk
import ZeroAudit.Foundation.KeySort

namespace ZeroAudit
namespace Verify

open Foundation Signature Commitment

/-!
# Walking a stretch of an honest chain

A segment is a run of honest records that follow a chain hash and a sequence
number without a gap.  Both tiers of the ledger export such records as
dictionaries, in some order, and the walk puts them back into theirs.  It
finds no break in a segment, and conversely an intact walk has seen
consecutive sequence numbers.
-/

variable (P : Platform)

/-! ## Segments -/

/-- Honest records that follow the chain hash `head` and the number `seq`. -/
def Segment (key : SigningKey) : PyStr -> Int -> List CommitmentRecord -> Prop
  | _, _, [] => True
  | head, seq, record :: rest =>
      HonestRecord P key record ∧ record.prevChainHash = head ∧ record.seq = seq + 1 ∧
        Segment key record.chainHash record.seq rest

section Segments

variable {P} {key : SigningKey} {head : PyStr} {seq : Int} {records : List CommitmentRecord}

theorem segment_append (first second : List CommitmentRecord) :
    Segment P key head seq (first ++ second) ↔ Segment P key head seq first ∧
      Segment P key (LinkChain.tip CommitmentRecord.chainHash head first) (seq + first.length) second := by
  induction first generalizing head seq with
  | nil => simp [Segment, LinkChain.tip]
  | cons record rest inductionHypothesis =>
      have shift : record.seq = seq + 1 -> record.seq + rest.length = seq + (record :: rest).length := by
        intro next
        rw [next, List.length_cons]
        push_cast
        omega
      constructor
      · rintro ⟨honest, prev, next, later⟩
        have both := inductionHypothesis.mp later
        rw [shift next] at both
        exact ⟨⟨honest, prev, next, both.1⟩, both.2⟩
      · rintro ⟨⟨honest, prev, next, later⟩, tail⟩
        refine ⟨honest, prev, next, inductionHypothesis.mpr ⟨later, ?_⟩⟩
        rw [shift next]
        exact tail

/-- The numbers of a segment are consecutive. -/
theorem seqs_of_segment (segment : Segment P key head seq records) :
    (records.Pairwise fun a b => a.seq < b.seq) ∧
      ∀ record ∈ records, seq < record.seq ∧ record.seq ≤ seq + records.length := by
  induction records generalizing head seq with
  | nil => exact ⟨List.Pairwise.nil, fun _ member => (List.not_mem_nil member).elim⟩
  | cons record rest inductionHypothesis =>
      rcases segment with ⟨-, -, next, later⟩
      rcases inductionHypothesis later with ⟨ordered, bounds⟩
      constructor
      · exact List.pairwise_cons.mpr ⟨fun other member => (bounds other member).1, ordered⟩
      · intro other member
        rw [List.length_cons]
        push_cast
        rcases List.mem_cons.mp member with rfl | member
        · omega
        · have bound := bounds other member
          omega

/-- The status of a record, and what else no link covers, may change in place. -/
theorem segment_replace {first second : List CommitmentRecord} {old new : CommitmentRecord}
    (segment : Segment P key head seq (first ++ old :: second)) (honest : HonestRecord P key new)
    (prev : new.prevChainHash = old.prevChainHash) (chain : new.chainHash = old.chainHash)
    (same : new.seq = old.seq) :
    Segment P key head seq (first ++ new :: second) := by
  rw [segment_append] at segment ⊢
  rcases segment with ⟨before, -, named, next, later⟩
  refine ⟨before, honest, prev.trans named, same.trans next, ?_⟩
  rw [chain, same]
  exact later

theorem honest_of_segment (segment : Segment P key head seq records) {record : CommitmentRecord}
    (member : record ∈ records) : HonestRecord P key record := by
  induction records generalizing head seq with
  | nil => cases member
  | cons first rest inductionHypothesis =>
      rcases List.mem_cons.mp member with rfl | later
      · exact segment.1
      · exact inductionHypothesis segment.2.2.2 later

end Segments

/-! ## Rows that stand for records -/

/-- The dictionary carries the chained fields of the record. -/
structure Carries (row : Dict) (record : CommitmentRecord) : Prop where
  txnId : Dict.find row "txn_id" = some record.txnId
  seq : Dict.find row "seq" = some (.int record.seq)
  bindingHash : Dict.find row "binding_hash" = some (.str record.bindingHash)
  prevChainHash : Dict.find row "prev_chain_hash" = some (.str record.prevChainHash)
  chainHash : Dict.find row "chain_hash" = some (.str record.chainHash)
  timestampNs : Dict.find row "timestamp_ns" = some (.int record.timestampNs)

theorem carries_export (record : CommitmentRecord) : Carries record.toExportDict record := by
  constructor <;> simp [CommitmentRecord.toExportDict]

theorem recomputes_of_carries {key : SigningKey} {row : Dict} {record : CommitmentRecord}
    (carries : Carries row record) (honest : HonestRecord P key record) : Recomputes P row := by
  rcases honest.link with ⟨preimage, built, chained⟩
  refine ⟨preimage, ?_, ?_⟩
  · rw [envelopeLink, Dict.get_of_find carries.prevChainHash, Dict.get_of_find carries.bindingHash,
      Dict.get_of_find carries.txnId, Dict.get_of_find carries.timestampNs, built]
  · rw [walkDigest, Dict.get_of_find carries.chainHash, chained]

/-- The key by which a walk sorts. -/
def seqOf (row : Dict) : Int :=
  match Dict.get row "seq" (.int 0) with
  | .int seq => seq
  | _ => 0

theorem seqOf_of_carries {row : Dict} {record : CommitmentRecord} (carries : Carries row record) :
    seqOf row = record.seq := by
  rw [seqOf, Dict.get_of_find carries.seq]

/-! ## The walk -/

section Walk

variable {key : SigningKey} {head : PyStr} {seq : Int} {records : List CommitmentRecord}
  {rowOf : CommitmentRecord -> Dict} (carries : ∀ record, Carries (rowOf record) record)
include carries

theorem foldlM_segment (reason : String) (segment : Segment P key head seq records) :
    (records.map rowOf).foldlM (walkStep P reason) ⟨[], .str head, .int seq⟩ =
      .ok ⟨[], .str (LinkChain.tip CommitmentRecord.chainHash head records),
        .int (seq + records.length)⟩ := by
  induction records generalizing head seq with
  | nil => simp [LinkChain.tip, pure, Except.pure]
  | cons record rest inductionHypothesis =>
      rcases segment with ⟨honest, prev, next, later⟩
      have before : seq = record.seq + -1 := by omega
      have round : walkStep P reason ⟨[], .str record.prevChainHash, .int (record.seq + -1)⟩
          (rowOf record) = .ok ⟨[], walkDigest (rowOf record), .int record.seq⟩ :=
        walkStep_clean P reason (carries record).prevChainHash (carries record).seq
          (recomputes_of_carries P (carries record) honest)
      rw [prev, ← before, walkDigest, Dict.get_of_find (carries record).chainHash] at round
      rw [List.map_cons, List.foldlM_cons, round]
      refine (inductionHypothesis later).trans ?_
      rw [next, List.length_cons]
      push_cast
      rw [add_assoc, add_comm 1]
      rfl

/-- Whatever the order of the rows, sorting finds the order of the segment. -/
theorem sortBySeq_segment (ordered : records.Pairwise fun a b => a.seq < b.seq) {rows : List Dict}
    (perm : rows.Perm (records.map rowOf)) : sortBySeq P rows = .ok (records.map rowOf) := by
  have numbered : ∀ row ∈ rows, walkSeq row = some (.finite (seqOf row)) := by
    intro row member
    rcases List.mem_map.mp (perm.mem_iff.mp member) with ⟨record, -, rfl⟩
    rw [seqOf_of_carries (carries record), walkSeq, Dict.get_of_find (carries record).seq]
    rfl
  rw [sortBySeq_of_numbers P numbered fun _ _ impossible => by cases impossible]
  refine congrArg Except.ok (mergeSort_of_key seqOf perm ?_ ?_)
  · rw [List.pairwise_map]
    apply ordered.imp
    intro a b less
    rw [seqOf_of_carries (carries a), seqOf_of_carries (carries b)]
    exact less
  · intro a _ b _
    simp [PyFloat.lt, ← decide_not]

/-- A walk over a segment reports it intact. -/
theorem walkChain_segment (reason detail : String) (segment : Segment P key head seq records)
    {rows : List Dict} (perm : rows.Perm (records.map rowOf)) :
    ∃ report, walkChain P reason detail rows = .ok report ∧ report.intact = true ∧
      report.checked = records.length ∧
      report.head = if records.isEmpty then none
        else some (.str (LinkChain.tip CommitmentRecord.chainHash head records)) := by
  have order := sortBySeq_segment P carries (seqs_of_segment segment).1 perm
  unfold walkChain
  rw [order]
  cases records with
  | nil => exact ⟨_, rfl, rfl, rfl, rfl⟩
  | cons record rest =>
      have rounds := foldlM_segment P carries reason segment
      have first := carries record
      rcases segment with ⟨-, prev, next, -⟩
      have start : record.seq + -1 = seq := by omega
      rw [List.map_cons] at rounds ⊢
      simp only [bind, Except.bind, List.head?_cons, List.getLast?_cons,
        Dict.get_of_find first.seq, Dict.get_of_find first.prevChainHash, Json.addInt, prev, start, rounds]
      exact ⟨_, rfl, rfl, by simp, rfl⟩

end Walk

/-! ## What an intact walk has seen -/

/-- A round without a break: the record follows in sequence. -/
theorem seq_of_walkStep {reason : String} {walk next : Walk} {row : Dict} {seq : Int}
    (stepped : walkStep P reason walk row = .ok next) (numbered : Dict.find row "seq" = some (.int seq)) :
    next.prevSeq = .int seq ∧
      (next.breaks = [] -> walk.breaks = [] ∧ ∀ before, walk.prevSeq = .int before -> seq = before + 1) := by
  unfold walkStep at stepped
  simp only [bind_eq_ok_iff] at stepped
  rcases stepped with ⟨_, -, gap, gapEq, result⟩
  cases result
  rw [Dict.get_of_find numbered] at gapEq
  refine ⟨Dict.get_of_find numbered, ?_⟩
  intro none
  simp only [List.append_eq_nil_iff] at none
  refine ⟨none.1.1.1, ?_⟩
  intro before prevSeq
  rw [prevSeq, none.2] at gapEq
  by_contra apart
  have unequal : ¬((seq : ℚ) = before + 1) := by exact_mod_cast apart
  simp only [sequenceGap, Json.addInt, Json.eqScalar, Json.asNumber, bind, Except.bind, pure, Except.pure] at gapEq
  push_cast at gapEq
  simp only [PyFloat.finite.injEq, unequal, false_and, decide_false, Bool.false_eq_true, if_false] at gapEq
  split at gapEq
  · cases gapEq
  · cases gapEq

theorem bounds_of_walk {reason : String} {rows : List Dict} {walk final : Walk} {before : Int}
    (numbered : ∀ row ∈ rows, Dict.find row "seq" = some (.int (seqOf row)))
    (ran : rows.foldlM (walkStep P reason) walk = .ok final) (intact : final.breaks = [])
    (prevSeq : walk.prevSeq = .int before) :
    walk.breaks = [] ∧ ∀ row ∈ rows, before < seqOf row ∧ seqOf row ≤ before + rows.length := by
  induction rows generalizing walk before with
  | nil =>
      cases ran
      exact ⟨intact, fun _ member => (List.not_mem_nil member).elim⟩
  | cons row rest inductionHypothesis =>
      rw [List.forall_mem_cons] at numbered
      rw [List.foldlM_cons] at ran
      rcases bind_eq_ok_iff.mp ran with ⟨next, stepped, later⟩
      rcases seq_of_walkStep P stepped numbered.1 with ⟨here, clean⟩
      rcases inductionHypothesis numbered.2 later here with ⟨none, bounds⟩
      rcases clean none with ⟨before', follows⟩
      have consecutive := follows before prevSeq
      refine ⟨before', ?_⟩
      intro other member
      rw [List.length_cons]
      push_cast
      rcases List.mem_cons.mp member with rfl | member
      · omega
      · have bound := bounds other member
        omega

/-- The numbers in an intact report span no more than its length. -/
theorem span_of_intact {rowOf : CommitmentRecord -> Dict}
    (carries : ∀ record, Carries (rowOf record) record) {reason detail : String}
    {records : List CommitmentRecord} {report : ChainReport}
    (ran : walkChain P reason detail (records.map rowOf) = .ok report) (intact : report.intact = true) :
    report.checked = records.length ∧
      ∀ a ∈ records, ∀ b ∈ records, b.seq < a.seq + records.length := by
  unfold walkChain at ran
  rcases bind_eq_ok_iff.mp ran with ⟨sorted, order, reported⟩
  have perm := perm_of_sortBySeq P order
  have length : sorted.length = records.length := by
    rw [perm.length_eq, List.length_map]
  have numbered : ∀ row ∈ sorted, Dict.find row "seq" = some (.int (seqOf row)) := by
    intro row member
    rcases List.mem_map.mp (perm.mem_iff.mp member) with ⟨record, -, rfl⟩
    rw [seqOf_of_carries (carries record), (carries record).seq]
  cases sorted with
  | nil =>
      cases reported
      rw [List.eq_nil_of_length_eq_zero length.symm]
      exact ⟨rfl, fun _ member => (List.not_mem_nil member).elim⟩
  | cons first rest =>
      simp only [List.head?_cons, List.getLast?_cons, Dict.get_of_find (numbered first List.mem_cons_self)]
        at reported
      rcases bind_eq_ok_iff.mp reported with ⟨start, startEq, walked⟩
      cases startEq
      rcases bind_eq_ok_iff.mp walked with ⟨final, rounds, same⟩
      cases same
      have bounds := (bounds_of_walk P numbered rounds (List.isEmpty_iff.mp intact) rfl).2
      have low : ∀ record ∈ records, seqOf first + -1 < record.seq ∧
          record.seq ≤ seqOf first + -1 + records.length := by
        intro record member
        have row := bounds (rowOf record) (perm.mem_iff.mpr (List.mem_map_of_mem member))
        rwa [seqOf_of_carries (carries record), length] at row
      refine ⟨length, ?_⟩
      intro a left b right
      have lower := low a left
      have upper := low b right
      omega

end Verify
end ZeroAudit
