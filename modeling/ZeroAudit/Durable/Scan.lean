import ZeroAudit.Durable.Reading
import ZeroAudit.Durable.Tables
import ZeroAudit.Foundation.Greatest

namespace ZeroAudit
namespace Cassandra

open Foundation Commitment

/-!
# The scan by day against a plain one

`recent` reads one day after the other, each up to the limit, and stops as soon as it has
as many rows as the limit.  Nothing is lost by that: a partition answers with its newest
rows, and whatever lies in an earlier partition is older.  What `recent` sorts is therefore
ample for the rows of all the days.

The results are stated for the exact day of a timestamp as well as for the one that
`bucket_for` rounds to, between which `recent` is told to choose.  Of either it is used that
a later time has no earlier day, and that the days before now are those that are read; the
rounded days are so where they lie next to each other.
-/

/-- The exact UTC day of a timestamp, and the one that `bucket_for` computes. -/
inductive DayReading where
  | exact
  | rounded
  deriving DecidableEq

def DayReading.bucketOf : DayReading -> Int -> Int
  | .exact, timestampNs => timestampNs / DAY_NS
  | .rounded, timestampNs => bucketFor timestampNs

/-- The days that are read are the last ones, of which the exact ones always are. -/
def DayReading.Adjacent : DayReading -> Int -> Nat -> Prop
  | .exact, _, _ => True
  | .rounded, nowNs, days => Cassandra.Adjacent nowNs days

/-- Every row of the table by day lies under the key of its columns, in the partition of
its timestamp. -/
def StoredBy (reading : DayReading) (ledger : CassandraLedger) : Prop :=
  ∀ entry ∈ ledger.commitmentsByBucket.entries,
    bucketKey entry.2 = some entry.1 ∧ entry.1.bucket = reading.bucketOf entry.1.timestampNs

namespace CassandraLedger

variable (ledger : CassandraLedger) (reading : DayReading)

/-- The rows of the partitions above one bucket, up to another. -/
def rowsBetween (low high : Int) : List Dict :=
  (ledger.commitmentsByBucket.entries.filter fun entry =>
    decide (low < entry.1.bucket ∧ entry.1.bucket ≤ high)).map fun entry => toDict entry.2

/-- The rows of the last days, the one of the clock included. -/
def rowsOfDays (days : Nat) : List Dict :=
  let today := reading.bucketOf ledger.environment.nowNs
  ledger.rowsBetween (today - days) today

end CassandraLedger

/-! ## Days -/

theorem bucketOf_mono (reading : DayReading) {first second : Int} (le : first ≤ second) :
    reading.bucketOf first ≤ reading.bucketOf second := by
  cases reading with
  | exact => exact Int.ediv_le_ediv (by decide) le
  | rounded => exact bucketFor_mono le

theorem bucketOf_sub_days {reading : DayReading} {nowNs : Int} {days d : Nat}
    (adjacent : reading.Adjacent nowNs days) (less : d < days) :
    reading.bucketOf (nowNs - d * DAY_NS) = reading.bucketOf nowNs - d := by
  cases reading with
  | exact =>
      change (nowNs - d * DAY_NS) / DAY_NS = nowNs / DAY_NS - d
      unfold DAY_NS
      omega
  | rounded => exact adjacent d less

/-- A row of a later day is newer. -/
theorem le_of_bucketOf_lt (reading : DayReading) {first second : Int}
    (less : reading.bucketOf first < reading.bucketOf second) : first ≤ second := by
  by_contra above
  have le := bucketOf_mono reading (Int.le_of_lt (Int.not_le.mp above))
  omega

section Scan

variable {ledger : CassandraLedger} {reading : DayReading}

/-! ## Rows -/

/-- The timestamp of a row is the one of its key. -/
theorem timestampOf_toDict {columns : Dict} {key : BucketKey} (keyed : bucketKey columns = some key) :
    CassandraLedger.timestampOf (CassandraLedger.toDict columns) = key.timestampNs := by
  have column : Dict.get (CassandraLedger.toDict columns) "timestamp_ns" (.int 0) =
      Dict.get columns "timestamp_ns" .null :=
    Dict.get_of_find (find_toDict columns (by decide) (by decide))
  unfold CassandraLedger.timestampOf
  rw [column]
  unfold bucketKey at keyed
  split at keyed
  · rename_i stamp _
    cases keyed
    rw [stamp]
  · cases keyed

theorem mem_rowsBetween_iff {low high : Int} {own : Dict} : own ∈ ledger.rowsBetween low high ↔
    ∃ entry ∈ ledger.commitmentsByBucket.entries,
      (low < entry.1.bucket ∧ entry.1.bucket ≤ high) ∧ CassandraLedger.toDict entry.2 = own := by
  unfold CassandraLedger.rowsBetween
  simp only [List.mem_map, List.mem_filter, decide_eq_true_iff, and_assoc]

theorem rowsBetween_self (bucket : Int) : ledger.rowsBetween bucket bucket = [] := by
  apply List.eq_nil_iff_forall_not_mem.mpr
  intro own member
  rcases mem_rowsBetween_iff.mp member with ⟨entry, _, ⟨above, below⟩, _⟩
  omega

/-- The rows above a bucket and those up to it. -/
theorem rowsBetween_append {low middle high : Int} (first : low ≤ middle) (second : middle ≤ high) :
    (ledger.rowsBetween middle high ++ ledger.rowsBetween low middle).Perm
      (ledger.rowsBetween low high) := by
  unfold CassandraLedger.rowsBetween
  rw [← List.map_append]
  apply List.Perm.map
  have parts := List.filter_append_perm (fun entry => decide (middle < entry.1.bucket))
    (ledger.commitmentsByBucket.entries.filter fun entry =>
      decide (low < entry.1.bucket ∧ entry.1.bucket ≤ high))
  rw [List.filter_filter, List.filter_filter] at parts
  refine (List.Perm.of_eq (congrArg₂ _ ?_ ?_)).trans parts
  · apply List.filter_congr
    intro entry _
    rw [← Bool.decide_and, decide_eq_decide]
    omega
  · apply List.filter_congr
    intro entry _
    rw [← decide_not, ← Bool.decide_and, decide_eq_decide]
    omega

/-- Rows of later days are newer. -/
theorem timestampOf_le (stored : StoredBy reading ledger) {low middle high : Int} {newer older : Dict}
    (later : newer ∈ ledger.rowsBetween middle high) (earlier : older ∈ ledger.rowsBetween low middle) :
    CassandraLedger.timestampOf older ≤ CassandraLedger.timestampOf newer := by
  rcases mem_rowsBetween_iff.mp later with ⟨entry, member, ⟨above, _⟩, same⟩
  rcases mem_rowsBetween_iff.mp earlier with ⟨other, memberOther, ⟨_, below⟩, sameOther⟩
  rcases stored entry member with ⟨keyed, bucket⟩
  rcases stored other memberOther with ⟨keyedOther, bucketOther⟩
  rw [← same, ← sameOther, timestampOf_toDict keyed, timestampOf_toDict keyedOther]
  apply le_of_bucketOf_lt reading
  omega

theorem clustered_trans {a b c : Sigma fun _ : BucketKey => Dict}
    (first : CassandraLedger.clustered a b = true) (second : CassandraLedger.clustered b c = true) :
    CassandraLedger.clustered a c = true := by
  unfold CassandraLedger.clustered at first second ⊢
  simp only [Bool.or_eq_true, Bool.and_eq_true, decide_eq_true_iff] at first second ⊢
  rcases first with newer | ⟨same, before⟩
  · apply Or.inl
    omega
  · rcases second with newer | ⟨sameToo, beforeToo⟩
    · apply Or.inl
      omega
    · exact Or.inr ⟨same.trans sameToo, le_trans before beforeToo⟩

theorem timestampNs_le_of_clustered {a b : Sigma fun _ : BucketKey => Dict}
    (clustered : CassandraLedger.clustered a b = true) : b.1.timestampNs ≤ a.1.timestampNs := by
  unfold CassandraLedger.clustered at clustered
  simp only [Bool.or_eq_true, Bool.and_eq_true, decide_eq_true_iff] at clustered
  rcases clustered with newer | ⟨same, _⟩
  · exact Int.le_of_lt newer
  · exact Int.le_of_eq same.symm

theorem clustered_total (a b : Sigma fun _ : BucketKey => Dict) :
    (CassandraLedger.clustered a b || CassandraLedger.clustered b a) = true := by
  unfold CassandraLedger.clustered
  simp only [Bool.or_eq_true, Bool.and_eq_true, decide_eq_true_iff]
  rcases lt_trichotomy a.1.timestampNs b.1.timestampNs with older | same | newer
  · exact Or.inr (Or.inl older)
  · rcases le_total (a.1.txnId.map PyStr.codePoint) (b.1.txnId.map PyStr.codePoint) with before | after
    · exact Or.inl (Or.inr ⟨same, before⟩)
    · exact Or.inr (Or.inr ⟨same.symm, after⟩)
  · exact Or.inl (Or.inl newer)

/-- The rows of a partition, in its order, are newest first. -/
theorem newest_first {partition : List (Sigma fun _ : BucketKey => Dict)}
    (keyed : ∀ entry ∈ partition, bucketKey entry.2 = some entry.1) :
    ((partition.mergeSort CassandraLedger.clustered).map fun entry =>
      CassandraLedger.toDict entry.2).Pairwise
        fun a b => CassandraLedger.timestampOf b ≤ CassandraLedger.timestampOf a := by
  have sorted : (partition.mergeSort CassandraLedger.clustered).Pairwise
      fun a b => CassandraLedger.clustered a b = true := by
    apply List.pairwise_mergeSort
    · intro a b c
      exact clustered_trans
    · exact clustered_total
  rw [List.pairwise_map]
  apply sorted.imp_of_mem
  intro a b left right clustered
  rw [timestampOf_toDict (keyed a (List.mem_mergeSort.mp left)),
    timestampOf_toDict (keyed b (List.mem_mergeSort.mp right))]
  exact timestampNs_le_of_clustered clustered

/-- The rows of one day. -/
theorem rowsBetween_day (bucket : Int) : ledger.rowsBetween (bucket - 1) bucket =
    (ledger.commitmentsByBucket.entries.filter fun entry => decide (entry.1.bucket = bucket)).map
      fun entry => CassandraLedger.toDict entry.2 := by
  unfold CassandraLedger.rowsBetween
  apply congrArg (List.map _)
  apply List.filter_congr
  intro entry _
  rw [decide_eq_decide]
  omega

/-- What a partition answers is ample for the rows of its day. -/
theorem ample_selectByBucket (stored : StoredBy reading ledger) (bucket : Int) (limit : Nat) :
    Ample CassandraLedger.timestampOf limit
      ((ledger.selectByBucket bucket limit).map CassandraLedger.toDict)
      (ledger.rowsBetween (bucket - 1) bucket) := by
  have keyed : ∀ entry ∈ ledger.commitmentsByBucket.entries.filter fun entry =>
      decide (entry.1.bucket = bucket), bucketKey entry.2 = some entry.1 := by
    intro entry member
    exact (stored entry (List.mem_of_mem_filter member)).1
  have newest := (ample_take limit (newest_first keyed)).perm ((List.mergeSort_perm _ _).map _)
  unfold CassandraLedger.selectByBucket
  rw [rowsBetween_day, List.map_map]
  rw [← List.map_take] at newest
  exact newest

/-! ## The scan -/

/-- The rows of the days before the last ones. -/
theorem rowsOfDays_append (days more : Nat) :
    (ledger.rowsOfDays reading days ++
      ledger.rowsBetween (reading.bucketOf ledger.environment.nowNs - (days + more : Nat))
        (reading.bucketOf ledger.environment.nowNs - days)).Perm
          (ledger.rowsOfDays reading (days + more)) := by
  apply rowsBetween_append
  · omega
  · omega

theorem rowsOfDays_succ (days : Nat) :
    (ledger.rowsOfDays reading days ++
      ledger.rowsBetween (reading.bucketOf ledger.environment.nowNs - days - 1)
        (reading.bucketOf ledger.environment.nowNs - days)).Perm (ledger.rowsOfDays reading (days + 1)) := by
  have before : reading.bucketOf ledger.environment.nowNs - (days : Int) - 1 =
      reading.bucketOf ledger.environment.nowNs - (days + 1 : Nat) := by
    omega
  rw [before]
  exact rowsOfDays_append days 1

/-- The scan from one day on is ample for the rows of all days, if what it starts with is
ample for those before. -/
theorem ample_scan (stored : StoredBy reading ledger)
    (reads : ∀ bucket, ledger.environment.fails (.selectByBucket bucket) = false) {limit : Nat}
    (positive : 1 ≤ limit) {start : Nat} (count : Nat)
    (adjacent : reading.Adjacent ledger.environment.nowNs (start + count)) {out : List Dict}
    (ample : Ample CassandraLedger.timestampOf limit out (ledger.rowsOfDays reading start)) :
    Ample CassandraLedger.timestampOf limit (ledger.scan reading.bucketOf limit (List.range' start count) out)
      (ledger.rowsOfDays reading (start + count)) := by
  induction count generalizing start out with
  | zero => exact ample
  | succ count inductionHypothesis =>
      have next : Ample CassandraLedger.timestampOf limit
          (out ++ (ledger.selectByBucket (reading.bucketOf ledger.environment.nowNs - start) limit).map
            CassandraLedger.toDict) (ledger.rowsOfDays reading (start + 1)) :=
        (ample.append (ample_selectByBucket stored _ limit)).perm (rowsOfDays_succ start)
      have total : start + (count + 1) = start + 1 + count := by omega
      rw [total] at adjacent
      rw [total, List.range'_succ, CassandraLedger.scan]
      dsimp only
      rw [bucketOf_sub_days adjacent (by omega), if_neg (by simp [reads]; omega)]
      split
      · rename_i full
        -- the partitions that are not read lie below everything that was
        apply (next.append_below full _).perm (rowsOfDays_append (start + 1) count)
        intro newer inside older below
        exact timestampOf_le stored (next.mem inside) below
      · exact inductionHypothesis adjacent next

end Scan

/-- The scan answers with the newest rows of the last days, newest first, and with as many
of them as the limit allows. -/
theorem recent_newest {ledger : CassandraLedger} {reading : DayReading} (stored : StoredBy reading ledger)
    (available : ledger.available = true)
    (reads : ∀ bucket, ledger.environment.fails (.selectByBucket bucket) = false) {limit : Nat}
    (positive : 1 ≤ limit) (days : Nat) (adjacent : reading.Adjacent ledger.environment.nowNs days) :
    Greatest CassandraLedger.timestampOf limit (ledger.rowsOfDays reading days)
      (ledger.recent limit days reading.bucketOf) := by
  have nothing : Ample CassandraLedger.timestampOf limit [] (ledger.rowsOfDays reading 0) := by
    unfold CassandraLedger.rowsOfDays
    dsimp only
    rw [Nat.cast_zero, sub_zero, rowsBetween_self]
    exact ample_refl []
  have ample := ample_scan stored reads positive days (by rwa [Nat.zero_add]) nothing
  rw [Nat.zero_add, ← List.range_eq_range'] at ample
  unfold CassandraLedger.recent
  rw [available]
  exact ample.greatest

/-- A row with the columns of its key. -/
def keyRow (key : BucketKey) : Dict :=
  [(PyStr.ofString "txn_id", .str key.txnId), (PyStr.ofString "bucket", .int key.bucket),
    (PyStr.ofString "timestamp_ns", .int key.timestampNs)]

theorem bucketKey_keyRow (key : BucketKey) : bucketKey (keyRow key) = some key := by
  simp [bucketKey, txnKey, keyRow, Dict.get]

/-- A row of the first day, and two rows of each of the two days after it. -/
def threeDays : CassandraLedger :=
  let keys : List BucketKey :=
    [⟨1, DAY_NS + 30, PyStr.ofString "TXN-2"⟩, ⟨2, 2 * DAY_NS + 10, PyStr.ofString "TXN-4"⟩,
      ⟨0, 5, PyStr.ofString "TXN-1"⟩, ⟨2, 2 * DAY_NS + 20, PyStr.ofString "TXN-5"⟩,
      ⟨1, DAY_NS + 40, PyStr.ofString "TXN-3"⟩]
  { (CassandraLedger.empty ⟨fun _ => false, 2 * DAY_NS + 50⟩) with
    commitmentsByBucket := keys.foldr (fun key table => table.insert key (keyRow key)) ∅ }

theorem length_selectByBucket (ledger : CassandraLedger) (bucket : Int) (limit : Nat) :
    (ledger.selectByBucket bucket limit).length = min limit
      (ledger.commitmentsByBucket.entries.countP fun entry => decide (entry.1.bucket = bucket)) := by
  unfold CassandraLedger.selectByBucket
  rw [List.length_map, List.length_take, List.length_mergeSort, List.countP_eq_length_filter]

/-- Three rows are wanted of three days that have five.  Two partitions are read, which have four. -/
theorem recent_newest_threeDays :
    Greatest CassandraLedger.timestampOf 3 (threeDays.rowsOfDays .exact 3)
        (threeDays.recent 3 3 DayReading.exact.bucketOf) ∧
      (threeDays.rowsOfDays .exact 3).length = 5 ∧
      (threeDays.scan DayReading.exact.bucketOf 3 [0, 1, 2] []).length = 4 := by
  have storedBy : StoredBy .exact threeDays := by
    have all : ∀ entry ∈ threeDays.commitmentsByBucket.entries,
        entry.2 = keyRow entry.1 ∧ entry.1.bucket = DayReading.exact.bucketOf entry.1.timestampNs := by
      intro entry member
      fin_cases member
      all_goals exact ⟨rfl, by decide⟩
    intro entry member
    rcases all entry member with ⟨columns, day⟩
    rw [columns]
    exact ⟨bucketKey_keyRow entry.1, day⟩
  refine ⟨recent_newest storedBy rfl (fun _ => rfl) (by decide) 3 trivial, by decide +kernel, ?_⟩
  have today : (threeDays.selectByBucket (DayReading.exact.bucketOf (2 * DAY_NS + 50 - (0 : Nat) * DAY_NS)) 3).length
      = 2 := by
    rw [length_selectByBucket]
    decide +kernel
  have yesterday : (threeDays.selectByBucket
      (DayReading.exact.bucketOf (2 * DAY_NS + 50 - (1 : Nat) * DAY_NS)) 3).length = 2 := by
    rw [length_selectByBucket]
    decide +kernel
  have clock : threeDays.environment = ⟨fun _ => false, 2 * DAY_NS + 50⟩ := rfl
  simp only [CassandraLedger.scan, clock, List.length_append, List.length_map, today, yesterday]
  rw [if_neg (by decide), if_neg (by decide), if_neg (by decide), if_pos (by decide), List.nil_append,
    List.length_append, List.length_map, List.length_map, today, yesterday]

/-! ## What the writes store -/

section Writes

variable {P : Platform} {ledger : CassandraLedger}

theorem storedBy_empty (environment : Environment) : StoredBy .rounded (.empty environment) := by
  intro entry member
  cases member

/-- The columns of a row name the day of its timestamp. -/
theorem day_of_row {rec columns : Dict} (computed : row P rec = .ok columns) :
    ∃ timestampNs, Dict.get columns "bucket" .null = .int (bucketFor timestampNs) ∧
      Dict.get columns "timestamp_ns" .null = .int timestampNs := by
  simp only [row, bind_eq_ok_iff] at computed
  rcases computed with ⟨timestampNs, -, seq, -, sizeKb, -, anomaly, -, novelty, -, typology, -, pii, -, same⟩
  cases same
  refine ⟨timestampNs, ?_, ?_⟩
  · simp [Dict.get]
  · simp [Dict.get]

/-- A row is stored in the partition of its timestamp. -/
theorem bucket_of_stored {rec columns : Dict} {key : BucketKey} (entry : stored P rec = some (key, columns)) :
    bucketKey columns = some key ∧ key.bucket = bucketFor key.timestampNs := by
  unfold stored at entry
  split at entry
  · cases entry
  · rename_i own computed
    rcases Option.map_eq_some_iff.mp entry with ⟨found, keyed, same⟩
    cases same
    refine ⟨keyed, ?_⟩
    rcases day_of_row computed with ⟨timestampNs, bucket, stamp⟩
    unfold bucketKey at keyed
    rw [bucket, stamp] at keyed
    split at keyed
    · rename_i sameBucket sameStamp _
      cases keyed
      cases sameBucket
      cases sameStamp
      rfl
    · cases keyed

theorem storedBy_write (storedBy : StoredBy .rounded ledger) (rec : Dict) :
    StoredBy .rounded (ledger.write P rec).2 := by
  rcases ledger.write_cases P rec with ⟨same, -⟩ | ⟨key, columns, entry, -, same, -⟩
  · unfold StoredBy
    rw [same]
    exact storedBy
  · unfold StoredBy
    rw [same, AList.entries_insert]
    intro own member
    rcases List.mem_cons.mp member with new | old
    · rw [new]
      exact bucket_of_stored entry
    · exact storedBy own ((List.kerase_sublist key _).mem old)

theorem storedBy_act (storedBy : StoredBy .rounded ledger) (input : Environment × Call) :
    StoredBy .rounded (act P ledger input).2 := by
  rcases input with ⟨environment, call⟩
  have meets : StoredBy .rounded (ledger.meets environment) := storedBy
  cases call with
  | write rec => exact storedBy_write meets rec
  | setStatus txnId status =>
      unfold StoredBy act
      rw [(setStatus_spec (ledger.meets environment) txnId status).1]
      exact storedBy

/-- Whatever is called on an empty ledger, its rows are stored by the day. -/
theorem storedBy_run (environment : Environment) (inputs : List (Environment × Call)) :
    StoredBy .rounded (Machine.run (act P) (.empty environment) inputs).2 := by
  apply Machine.invariant_run (StoredBy .rounded)
  · intro ledger input _ storedBy
    exact storedBy_act storedBy input
  · exact storedBy_empty environment

end Writes
end Cassandra
end ZeroAudit
