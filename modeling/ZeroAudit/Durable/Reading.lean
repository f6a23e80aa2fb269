import ZeroAudit.Chain.Segment
import ZeroAudit.Durable.Days
import ZeroAudit.Durable.Writes

namespace ZeroAudit
namespace Cassandra

open Foundation Commitment Verify

/-!
# Reading the table by day

`recent` reads two partitions, each up to the limit, and sorts what it gets.
If the table holds a stretch of an honest chain whose clock has advanced from
record to record, then so does every answer of `recent`, whatever the limit,
the day, and the statements that raise.  An audit of the answer finds it
intact.
-/

variable (P : Platform)

/-! ## The table of a stretch -/

/-- The row of a record in the table by day. -/
def recordKey (record : CommitmentRecord) : BucketKey :=
  match record.txnId with
  | .str txnId => keyOf record txnId
  | _ => keyOf record []

theorem recordKey_of_named {record : CommitmentRecord} {txnId : PyStr}
    (named : record.txnId = .str txnId) : recordKey record = keyOf record txnId := by
  unfold recordKey
  rw [named]

def entryOf (record : CommitmentRecord) : Sigma fun _ : BucketKey => Dict :=
  ⟨recordKey record, exportRow record⟩

theorem timestampNs_entryOf (record : CommitmentRecord) :
    (entryOf record).1.timestampNs = record.timestampNs := by
  unfold entryOf recordKey
  dsimp only
  split <;> rfl

theorem bucket_entryOf (record : CommitmentRecord) :
    (entryOf record).1.bucket = bucketFor record.timestampNs := by
  unfold entryOf recordKey
  dsimp only
  split <;> rfl

/-- A reader gets every column, and `None` for one without a value. -/
theorem find_toDict (columns : Dict) {column : String} (listed : column ∈ COLUMNS)
    (plain : column ≠ "lwe_params") :
    Dict.find (CassandraLedger.toDict columns) column = some (Dict.get columns column .null) := by
  unfold CassandraLedger.toDict
  rw [Dict.find_map_ofString _ listed, if_neg plain]

/-- What a reader gets for a record. -/
def rowOf (record : CommitmentRecord) : Dict := CassandraLedger.toDict (exportRow record)

theorem carries_rowOf (record : CommitmentRecord) : Carries (rowOf record) record := by
  unfold rowOf
  constructor <;> rw [find_toDict _ (by decide) (by decide)] <;> simp [exportRow, Dict.get]

/-- The table by day holds these records, whose clock has advanced. -/
structure Holds (ledger : CassandraLedger) (block : List CommitmentRecord) : Prop where
  entries : ledger.commitmentsByBucket.entries.Perm (block.map entryOf)
  advancing : block.Pairwise fun a b => a.timestampNs < b.timestampNs

section Reading

variable {ledger : CassandraLedger} {block : List CommitmentRecord}

/-- The records of a day. -/
def dayOf (block : List CommitmentRecord) (bucket : Int) : List CommitmentRecord :=
  block.filter fun record => decide (bucketFor record.timestampNs = bucket)

/-- A partition answers with its newest records first. -/
theorem selectByBucket_of_holds (holds : Holds ledger block) (bucket : Int) (limit : Nat) :
    ledger.selectByBucket bucket limit = ((dayOf block bucket).reverse.take limit).map exportRow := by
  have perm : (ledger.commitmentsByBucket.entries.filter fun entry =>
      decide (entry.1.bucket = bucket)).Perm ((dayOf block bucket).reverse.map entryOf) := by
    refine (holds.entries.filter _).trans ?_
    rw [List.filter_map]
    refine List.Perm.trans (List.Perm.of_eq ?_) ((List.reverse_perm (dayOf block bucket)).symm.map entryOf)
    apply congrArg (List.map entryOf)
    apply List.filter_congr
    intro record _
    simp only [Function.comp_apply, bucket_entryOf]
  have ordered : ((dayOf block bucket).reverse.map entryOf).Pairwise
      fun a b => -a.1.timestampNs < -b.1.timestampNs := by
    rw [List.pairwise_map, List.pairwise_reverse]
    apply (holds.advancing.filter _).imp
    intro a b less
    rw [timestampNs_entryOf, timestampNs_entryOf]
    omega
  have sorted : (ledger.commitmentsByBucket.entries.filter fun entry =>
      decide (entry.1.bucket = bucket)).mergeSort CassandraLedger.clustered =
        (dayOf block bucket).reverse.map entryOf := by
    apply mergeSort_of_key (fun entry => -entry.1.timestampNs) perm ordered
    intro a left b right
    unfold CassandraLedger.clustered
    by_cases same : a.1.timestampNs = b.1.timestampNs
    · have equal : a = b := eq_of_key_eq (fun entry => -entry.1.timestampNs) ordered
        (perm.mem_iff.mp left) (perm.mem_iff.mp right) (by omega)
      rw [equal]
      simp
    · simp only [same, decide_false, Bool.false_and, Bool.or_false, decide_eq_decide]
      omega
  unfold CassandraLedger.selectByBucket
  dsimp only
  rw [sorted, ← List.map_take, List.map_map]
  rfl

theorem timestampOf_of_carries {row : Dict} {record : CommitmentRecord} (carries : Carries row record) :
    CassandraLedger.timestampOf row = record.timestampNs := by
  rw [CassandraLedger.timestampOf, Dict.get_of_find carries.timestampNs]

/-- A scan finds the newest records of a stretch, newest first. -/
theorem scan_of_holds (holds : Holds ledger block) (adjacent : Adjacent ledger.environment.nowNs 2)
    (limit : Nat) :
    ∃ records, records <:+: block ∧
      ledger.scan bucketFor limit (List.range 2) [] = records.reverse.map rowOf := by
  have days : block.Pairwise fun a b => bucketFor a.timestampNs ≤ bucketFor b.timestampNs := by
    apply holds.advancing.imp
    intro a b less
    exact bucketFor_mono (Int.le_of_lt less)
  have neighbours : ∃ first last, block = first ++ (dayOf block (bucketFor ledger.environment.nowNs - 1) ++
      dayOf block (bucketFor ledger.environment.nowNs)) ++ last :=
    adjacent_keys (fun record : CommitmentRecord => bucketFor record.timestampNs) days
      (bucketFor ledger.environment.nowNs)
  have yesterday : bucketFor (ledger.environment.nowNs - DAY_NS) = bucketFor ledger.environment.nowNs - 1 := by
    have one := adjacent 1 (by decide)
    rwa [Nat.cast_one, one_mul] at one
  have here := selectByBucket_of_holds holds (bucketFor ledger.environment.nowNs) limit
  have before := selectByBucket_of_holds holds (bucketFor ledger.environment.nowNs - 1) limit
  have read : ∀ records : List CommitmentRecord,
      (records.map exportRow).map CassandraLedger.toDict = records.map rowOf := by
    intro records
    rw [List.map_map]
    rfl
  simp only [List.range_succ_eq_map, List.range_zero, List.map_nil, List.map_cons, CassandraLedger.scan,
    Nat.cast_zero, zero_mul, sub_zero, Nat.cast_one, one_mul, yesterday, here, before, read,
    List.nil_append]
  generalize dayOf block (bucketFor ledger.environment.nowNs) = today at neighbours
  generalize dayOf block (bucketFor ledger.environment.nowNs - 1) = yesterday at neighbours
  rcases neighbours with ⟨first, last, whole⟩
  have part : ∃ records, records <:+: block ∧
      (today.reverse.take limit).map rowOf = records.reverse.map rowOf := by
    refine ⟨today.drop (today.length - limit), ?_, ?_⟩
    · rw [whole, List.append_assoc, List.append_assoc]
      refine ((List.drop_suffix _ today).isInfix.trans ?_)
      exact ⟨first ++ yesterday, last, by rw [List.append_assoc, List.append_assoc]⟩
    · rw [List.take_reverse]
  split
  · exact ⟨[], List.nil_infix, rfl⟩
  · split
    · exact part
    · rename_i more
      split
      · exact part
      · -- the first partition is read to its end
        rw [List.length_map, List.length_take, List.length_reverse] at more
        have all : today.reverse.take limit = today.reverse :=
          List.take_of_length_le (by rw [List.length_reverse]; omega)
        refine ⟨yesterday.drop (yesterday.length - limit) ++ today, ?_, ?_⟩
        · rw [whole]
          refine ⟨first ++ yesterday.take (yesterday.length - limit), last, ?_⟩
          simp only [List.append_assoc]
          rw [← List.append_assoc (yesterday.take _), List.take_append_drop]
        · rw [ite_self, all, List.reverse_append, List.map_append, ← List.take_reverse]

/-- The answer of `recent` is a stretch of the stretch. -/
theorem recent_of_holds (holds : Holds ledger block) (adjacent : Adjacent ledger.environment.nowNs 2)
    (limit : Nat) :
    ∃ records, records <:+: block ∧ ledger.recent limit 2 = records.reverse.map rowOf := by
  unfold CassandraLedger.recent
  split
  · exact ⟨[], List.nil_infix, rfl⟩
  · rcases scan_of_holds holds adjacent limit with ⟨records, infix', scanned⟩
    have ordered : (records.reverse.map rowOf).Pairwise fun a b =>
        -CassandraLedger.timestampOf a < -CassandraLedger.timestampOf b := by
      rw [List.pairwise_map, List.pairwise_reverse]
      apply (holds.advancing.sublist infix'.sublist).imp
      intro a b less
      rw [timestampOf_of_carries (carries_rowOf a), timestampOf_of_carries (carries_rowOf b)]
      omega
    have sorted : (records.reverse.map rowOf).mergeSort (fun a b =>
        decide (CassandraLedger.timestampOf b ≤ CassandraLedger.timestampOf a)) = records.reverse.map rowOf := by
      apply mergeSort_of_key (fun row => -CassandraLedger.timestampOf row) (List.Perm.refl _) ordered
      intro a _ b _
      simp only [neg_le_neg_iff]
    dsimp only
    rw [scanned, sorted, ← List.map_take, List.take_reverse]
    exact ⟨_, (List.drop_suffix _ records).isInfix.trans infix', rfl⟩

/-- An audit of the table finds it intact. -/
theorem audit_of_holds {key : Signature.SigningKey} {head : PyStr} {seq : Int}
    (holds : Holds ledger block) (segment : Segment P key head seq block)
    (adjacent : Adjacent ledger.environment.nowNs 2) (limit : Nat) :
    ∃ report, verifyChain P (ledger.recent limit 2) = .ok report ∧ report.intact = true := by
  rcases recent_of_holds holds adjacent limit with ⟨records, ⟨first, last, whole⟩, answer⟩
  rw [← whole, segment_append, segment_append] at segment
  rcases walkChain_segment P carries_rowOf "CHAIN_HASH_RECOMPUTE_MISMATCH" "empty ledger" segment.1.2
    ((List.reverse_perm records).map rowOf) with ⟨report, walked, intact, -⟩
  rw [answer]
  exact ⟨report, walked, intact⟩

end Reading
end Cassandra
end ZeroAudit
