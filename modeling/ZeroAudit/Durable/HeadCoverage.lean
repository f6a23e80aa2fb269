import ZeroAudit.Durable.Reading
import ZeroAudit.Durable.Restarts

namespace ZeroAudit
namespace Cassandra

open Foundation Commitment Verify

/-!
# What the durable head promises

The head is saved whatever became of the record before it.  It covers the
records up to its number if they are in both tables.  Which rows a run leaves in
the tables can be told from its calls and from the statements that go through, and
so can whether the head covers them.

The table by day is moreover one stretch of the chain if the calls that put a row
there follow one another, without a link between them that has none.
-/

variable (P : Platform)

/-- One `add`, in the environment it meets. -/
def attempt (deployment : Deployment) (input : Environment × AddCall) :
    Option CommitmentRecord × Deployment :=
  happen P deployment (.add input.1 input.2)

/-- The record has its rows in both tables. -/
def InTables (ledger : CassandraLedger) (record : CommitmentRecord) : Prop :=
  ∃ txnId, record.txnId = .str txnId ∧
    ledger.commitmentsByBucket.lookup (keyOf record txnId) = some (exportRow record) ∧
    ledger.commitmentsByTxn.lookup txnId = some (exportRow record)

/-- Where the durable head is `(seq, h)`, all records up to `seq` are in both
tables, and the one numbered `seq` has the chain hash `h`. -/
def Covered (deployment : Deployment) : Prop :=
  ∀ ledger, deployment.store.ledger = some ledger ->
    ∀ own, ledger.ledgerHead.lookup DEFAULT_SHARD = some own ->
      (∀ record ∈ deployment.returned, record.seq ≤ own.seq -> InTables ledger record) ∧
        ∃ record ∈ deployment.returned, record.seq = own.seq ∧ record.chainHash = own.chainHash

/-! ## What the inputs say -/

/-- The keys of a record, and which of its statements go through. -/
structure Filing where
  txnId : Json
  nowNs : Int
  byBucket : Bool
  byTxn : Bool
  saved : Bool

/-- The second `INSERT` is made after the first one only. -/
def filingOf (input : Environment × AddCall) : Filing where
  txnId := input.2.txnId
  nowNs := input.2.nowNs
  byBucket := !input.1.fails (.insert .commitmentsByBucket)
  byTxn := !input.1.fails (.insert .commitmentsByBucket) && !input.1.fails (.insert .commitmentsByTxn)
  saved := !input.1.fails .updateHead

/-- The filings of the calls that come to a record. -/
def filings (inputs : List (Environment × AddCall)) : List Filing :=
  (inputs.filter fun input => decide (Sealable input.2 ∧ Fillable P input.2)).map filingOf

/-- The later one writes over no row of the other. -/
def Filing.Spared (own later : Filing) : Prop :=
  own.txnId = later.txnId -> later.byBucket = true -> later.byTxn = false ∧ own.nowNs ≠ later.nowNs

/-- Every filing up to the last one that saves the head gets both its rows, and no
later one writes over them. -/
def Kept (filings : List Filing) : Prop :=
  ∀ before own after, filings = before ++ own :: after -> (∃ other ∈ own :: after, other.saved = true) ->
    own.byTxn = true ∧ ∀ later ∈ after, own.Spared later

/-- The call comes to a record, and puts its row into the table by day. -/
def PutsRow (input : Environment × AddCall) : Prop :=
  Fillable P input.2 ∧ input.1.fails (.insert .commitmentsByBucket) = false

/-- Among the calls that come to a link, those that put a row follow one another, and
their clock advances. -/
def Unbroken (inputs : List (Environment × AddCall)) : Prop :=
  ∃ first block last, (inputs.filter fun input => decide (Sealable input.2)) = first ++ (block ++ last) ∧
    (∀ input ∈ first ++ last, ¬PutsRow P input) ∧ (∀ input ∈ block, PutsRow P input) ∧
    block.Pairwise fun a b => a.2.nowNs < b.2.nowNs

/-! ## Rows -/

section Rows

variable {P}

theorem seq_of_exportRow {first second : CommitmentRecord} (same : exportRow first = exportRow second) :
    first.seq = second.seq := by
  have found := congrArg (fun row => Dict.find row "seq") same
  simpa [exportRow] using found

/-- What an insert has not put there was there, under another key. -/
theorem lookup_insert_iff {K : Type} [DecidableEq K] {table : AList fun _ : K => Dict} {key other : K}
    {columns found : Dict} (foreign : columns ≠ found) :
    (table.insert key columns).lookup other = some found ↔
      other ≠ key ∧ table.lookup other = some found := by
  by_cases same : other = key
  · subst same
    rw [AList.lookup_insert]
    constructor
    · intro equal
      exact absurd (Option.some.inj equal) foreign
    · rintro ⟨different, -⟩
      exact absurd rfl different
  · rw [AList.lookup_insert_ne same]
    exact ⟨fun held => ⟨same, held⟩, fun held => held.2⟩

theorem keyOf_eq_iff {first second : CommitmentRecord} {txnId other : PyStr} :
    keyOf first txnId = keyOf second other ↔
      txnId = other ∧ first.timestampNs = second.timestampNs := by
  constructor
  · intro same
    exact ⟨congrArg BucketKey.txnId same, congrArg BucketKey.timestampNs same⟩
  · rintro ⟨rfl, same⟩
    unfold keyOf
    rw [same]

/-- Another record is still in the tables after an `add` if it was, and was
not written over. -/
theorem inTables_persisted_iff {ledger : CassandraLedger} {record other : CommitmentRecord}
    {txnId : PyStr} (named : record.txnId = .str txnId) (distinct : other.seq ≠ record.seq) :
    InTables (ledger.persisted P record) other ↔ InTables ledger other ∧
      (other.txnId = record.txnId -> ledger.takes (.insert .commitmentsByBucket) = true ->
        ledger.takes (.insert .commitmentsByTxn) = false ∧ other.timestampNs ≠ record.timestampNs) := by
  rcases ledger.persisted_spec P named with ⟨bucket, txn, -⟩
  have foreign : exportRow record ≠ exportRow other :=
    fun same => distinct (seq_of_exportRow same).symm
  unfold InTables
  rw [bucket, txn, named]
  cases first : ledger.takes (.insert .commitmentsByBucket) with
  | false => simp
  | true =>
      cases second : ledger.takes (.insert .commitmentsByTxn) with
      | false =>
          simp only [Bool.true_and, Bool.false_eq_true, if_true, if_false, lookup_insert_iff foreign]
          constructor
          · rintro ⟨id, own, ⟨apart, byBucket⟩, byTxn⟩
            refine ⟨⟨id, own, byBucket, byTxn⟩, ?_⟩
            intro same _
            rw [own] at same
            cases same
            exact ⟨trivial, fun equal => apart (keyOf_eq_iff.mpr ⟨rfl, equal⟩)⟩
          · rintro ⟨⟨id, own, byBucket, byTxn⟩, kept⟩
            refine ⟨id, own, ⟨?_, byBucket⟩, byTxn⟩
            intro same
            rcases keyOf_eq_iff.mp same with ⟨rfl, equal⟩
            exact (kept own trivial).2 equal
      | true =>
          simp only [Bool.true_and, if_true, lookup_insert_iff foreign]
          constructor
          · rintro ⟨id, own, ⟨-, byBucket⟩, apart, byTxn⟩
            refine ⟨⟨id, own, byBucket, byTxn⟩, ?_⟩
            intro same _
            rw [own] at same
            cases same
            exact absurd rfl apart
          · rintro ⟨⟨id, own, byBucket, byTxn⟩, kept⟩
            have apart : id ≠ txnId := by
              rintro rfl
              exact absurd (kept own trivial).1 Bool.noConfusion
            refine ⟨id, own, ⟨?_, byBucket⟩, apart, byTxn⟩
            intro same
            exact apart (keyOf_eq_iff.mp same).1

/-! ## Filings -/

/-- Whatever is in the tables is from these records. -/
structure RowsOf (ledger : CassandraLedger) (records : List CommitmentRecord) : Prop where
  byBucket : ∀ key columns, ledger.commitmentsByBucket.lookup key = some columns ->
    ∃ record ∈ records, columns = exportRow record
  byTxn : ∀ txnId columns, ledger.commitmentsByTxn.lookup txnId = some columns ->
    ∃ record ∈ records, columns = exportRow record

/-- An insert adds the row of the record. -/
theorem rows_insert {K : Type} [DecidableEq K] {table : AList fun _ : K => Dict}
    {records : List CommitmentRecord} (record : CommitmentRecord)
    (rows : ∀ key columns, table.lookup key = some columns -> ∃ own ∈ records, columns = exportRow own)
    (inserts : Bool) (written key : K) (columns : Dict)
    (found : (if inserts = true then table.insert written (exportRow record) else table).lookup key =
      some columns) : ∃ own ∈ records ++ [record], columns = exportRow own := by
  by_cases own : exportRow record = columns
  · exact ⟨record, List.mem_append_right _ List.mem_cons_self, own.symm⟩
  · have held : table.lookup key = some columns := by
      split at found
      · exact ((lookup_insert_iff own).mp found).2
      · exact found
    rcases rows key columns held with ⟨other, member, same⟩
    exact ⟨other, List.mem_append_left _ member, same⟩

theorem rowsOf_persisted {records : List CommitmentRecord} {ledger : CassandraLedger}
    {record : CommitmentRecord} {txnId : PyStr} (named : record.txnId = .str txnId)
    (rows : RowsOf ledger records) : RowsOf (ledger.persisted P record) (records ++ [record]) := by
  rcases ledger.persisted_spec P named with ⟨bucket, txn, -⟩
  constructor
  · rw [bucket]
    exact rows_insert record rows.byBucket _ _
  · rw [txn]
    exact rows_insert record rows.byTxn _ _

/-- A new record is in the tables if both its rows were written. -/
theorem inTables_persisted_self_iff {records : List CommitmentRecord} {ledger : CassandraLedger}
    {record : CommitmentRecord} {txnId : PyStr} (named : record.txnId = .str txnId)
    (rows : RowsOf ledger records) (distinct : ∀ other ∈ records, other.seq ≠ record.seq) :
    InTables (ledger.persisted P record) record ↔
      ledger.takes (.insert .commitmentsByBucket) = true ∧
        ledger.takes (.insert .commitmentsByTxn) = true := by
  rcases ledger.persisted_spec P named with ⟨bucket, txn, -⟩
  constructor
  · rintro ⟨id, -, byBucket, byTxn⟩
    rw [bucket] at byBucket
    rw [txn] at byTxn
    have first : ledger.takes (.insert .commitmentsByBucket) = true := by
      by_contra fails
      rw [if_neg fails] at byBucket
      rcases rows.byBucket _ _ byBucket with ⟨other, member, same⟩
      exact distinct other member (seq_of_exportRow same).symm
    refine ⟨first, ?_⟩
    by_contra fails
    rw [first, Bool.true_and, if_neg fails] at byTxn
    rcases rows.byTxn _ _ byTxn with ⟨other, member, same⟩
    exact distinct other member (seq_of_exportRow same).symm
  · rintro ⟨first, second⟩
    refine ⟨txnId, named, ?_, ?_⟩
    · rw [bucket, if_pos first, AList.lookup_insert]
    · rw [txn, first, second, Bool.true_and, if_pos rfl, AList.lookup_insert]

/-- A record, with its filing. -/
abbrev Filed := CommitmentRecord × Filing

/-- What a ledger holds of these records is what their filings say. -/
structure Holdings (ledger : CassandraLedger) (entries : List Filed) : Prop where
  available : ledger.available = true
  named : ∀ own ∈ entries, own.1.txnId = own.2.txnId ∧ own.1.timestampNs = own.2.nowNs
  increasing : entries.Pairwise fun a b => a.1.seq < b.1.seq
  rows : RowsOf ledger (entries.map Prod.fst)
  tables : ∀ before own after, entries = before ++ own :: after ->
    (InTables ledger own.1 ↔ own.2.byTxn = true ∧ ∀ later ∈ after, own.2.Spared later.2)
  head : (ledger.ledgerHead.lookup DEFAULT_SHARD).map (fun own => (own.seq, own.chainHash)) =
    (entries.filter fun own => own.2.saved).getLast?.map fun own => (own.1.seq, own.1.chainHash)

theorem Holdings.meets {ledger : CassandraLedger} {entries : List Filed} (holdings : Holdings ledger entries)
    (environment : Environment) : Holdings (ledger.meets environment) entries :=
  ⟨holdings.available, holdings.named, holdings.increasing, ⟨holdings.rows.byBucket, holdings.rows.byTxn⟩,
    holdings.tables, holdings.head⟩

/-- A statement goes through where it does not raise. -/
theorem takes_of_available {ledger : CassandraLedger} (available : ledger.available = true)
    (environment : Environment) (statement : Statement) :
    (ledger.meets environment).takes statement = !environment.fails statement := by
  unfold CassandraLedger.takes CassandraLedger.meets
  rw [available, Bool.true_and]

/-- A new record is filed as its call and its environment say. -/
theorem holdings_persisted {ledger : CassandraLedger} {entries : List Filed} (holdings : Holdings ledger entries)
    {input : Environment × AddCall} {record : CommitmentRecord} {txnId : PyStr}
    (named : record.txnId = .str txnId) (called : record.txnId = input.2.txnId)
    (stamped : record.timestampNs = input.2.nowNs) (later : ∀ own ∈ entries, own.1.seq < record.seq) :
    Holdings ((ledger.meets input.1).persisted P record) (entries ++ [(record, filingOf input)]) := by
  have takes := takes_of_available holdings.available input.1
  rcases (ledger.meets input.1).persisted_spec P named with ⟨-, -, head, available, -⟩
  have distinct : ∀ own ∈ entries, own.1.seq ≠ record.seq := fun own member => Int.ne_of_lt (later own member)
  refine ⟨available.trans holdings.available, ?_, ?_, ?_, ?_, ?_⟩
  · intro own member
    rcases List.mem_append.mp member with before | latest
    · exact holdings.named own before
    · rw [List.mem_singleton.mp latest]
      exact ⟨called, stamped⟩
  · refine List.pairwise_append.mpr ⟨holdings.increasing, List.pairwise_singleton _ _, ?_⟩
    intro own member other latest
    rw [List.mem_singleton.mp latest]
    exact later own member
  · rw [List.map_append]
    exact rowsOf_persisted named (holdings.meets input.1).rows
  · intro before own after split
    rcases List.eq_nil_or_concat after with rfl | ⟨middle, last, rfl⟩
    · have same := List.append_inj' split rfl
      cases same.2
      have foreign : ∀ other ∈ entries.map Prod.fst, other.seq ≠ record.seq := by
        intro other member
        rcases List.mem_map.mp member with ⟨entry, inside, rfl⟩
        exact distinct entry inside
      rw [inTables_persisted_self_iff named (holdings.meets input.1).rows foreign, takes, takes]
      simp [filingOf]
    · rw [List.concat_eq_append, ← List.cons_append, ← List.append_assoc] at split
      rcases List.append_inj' split rfl with ⟨whole, final⟩
      cases final
      have inside : own ∈ entries := by
        rw [whole]
        exact List.mem_append_right _ List.mem_cons_self
      have known : InTables (ledger.meets input.1) own.1 ↔ _ := holdings.tables before own middle whole
      rw [inTables_persisted_iff named (distinct own inside), known, takes, takes, called, stamped,
        (holdings.named own inside).1, (holdings.named own inside).2, List.concat_eq_append, and_assoc]
      apply and_congr_right
      intro _
      simp only [List.forall_mem_append, List.forall_mem_singleton, Filing.Spared, filingOf]
      apply and_congr_right
      intro _
      apply imp_congr_right
      intro _
      cases input.1.fails (.insert .commitmentsByBucket) <;> simp
  · rw [head, takes, List.filter_append]
    cases saves : input.1.fails .updateHead with
    | true => simp [filingOf, saves, holdings.head, CassandraLedger.meets]
    | false => simp [filingOf, saves]

/-- Filings are kept if every record is in the tables after which the head was saved. -/
theorem kept_iff_inTables {ledger : CassandraLedger} {entries : List Filed} (holdings : Holdings ledger entries) :
    Kept (entries.map Prod.snd) ↔ ∀ before own after, entries = before ++ own :: after ->
      (∃ other ∈ own :: after, other.2.saved = true) -> InTables ledger own.1 := by
  unfold Kept
  constructor
  · rintro kept before own after split ⟨other, member, saved⟩
    apply (holdings.tables before own after split).mpr
    have all := kept (before.map Prod.snd) own.2 (after.map Prod.snd) (by rw [split]; simp)
      ⟨other.2, List.mem_map_of_mem (f := Prod.snd) member, saved⟩
    exact ⟨all.1, fun later inside => all.2 later.2 (List.mem_map_of_mem inside)⟩
  · rintro inside before own after split ⟨other, member, saved⟩
    rcases List.map_eq_append_iff.mp split with ⟨front, rest, whole, rfl, tail⟩
    rcases List.map_eq_cons_iff.mp tail with ⟨entry, back, rfl, rfl, rfl⟩
    rw [← List.map_cons] at member
    rcases List.mem_map.mp member with ⟨found, here, rfl⟩
    have tables := (holdings.tables front entry back whole).mp (inside front entry back whole ⟨found, here, saved⟩)
    refine ⟨tables.1, ?_⟩
    intro later among
    rcases List.mem_map.mp among with ⟨next, behind, rfl⟩
    exact tables.2 next behind

/-- The records up to the last one of which the head was saved. -/
theorem seq_le_lastSaved_iff {before after front : List Filed} {own last : Filed}
    (increasing : (before ++ own :: after).Pairwise fun a b => a.1.seq < b.1.seq)
    (filtered : ((before ++ own :: after).filter fun entry => entry.2.saved) = front ++ [last]) :
    own.1.seq ≤ last.1.seq ↔ ∃ other ∈ own :: after, other.2.saved = true := by
  have member : last ∈ before ++ own :: after ∧ last.2.saved = true := by
    apply List.mem_filter.mp
    rw [filtered]
    exact List.mem_append_right _ List.mem_cons_self
  have ordered := increasing
  rw [List.pairwise_append, List.pairwise_cons] at ordered
  constructor
  · intro below
    refine ⟨last, ?_, member.2⟩
    rcases List.mem_append.mp member.1 with early | late
    · exact absurd (ordered.2.2 last early own List.mem_cons_self) (Int.not_lt.mpr below)
    · exact late
  · rintro ⟨other, among, saved⟩
    have known : other ∈ front ++ [last] := by
      rw [← filtered]
      exact List.mem_filter.mpr ⟨List.mem_append_right _ among, saved⟩
    have early : own.1.seq ≤ other.1.seq := by
      rcases List.mem_cons.mp among with rfl | behind
      · exact le_rfl
      · exact (ordered.2.1.1 other behind).le
    have chronological := increasing.sublist (List.filter_sublist (p := fun entry => entry.2.saved))
    rw [filtered] at chronological
    rcases List.mem_append.mp known with earlier | final
    · exact early.trans ((List.pairwise_append.mp chronological).2.2 other earlier last List.mem_cons_self).le
    · rw [List.mem_singleton.mp final] at early
      exact early

/-- The head is the last record of which it was saved. -/
theorem Holdings.head_of_saved {ledger : CassandraLedger} {entries front : List Filed} {last : Filed}
    (holdings : Holdings ledger entries)
    (filtered : (entries.filter fun own => own.2.saved) = front ++ [last]) :
    ∃ own, ledger.ledgerHead.lookup DEFAULT_SHARD = some own ∧
      own.seq = last.1.seq ∧ own.chainHash = last.1.chainHash := by
  have head := holdings.head
  rw [filtered, List.getLast?_concat, Option.map_some] at head
  rcases Option.map_eq_some_iff.mp head with ⟨own, held, same⟩
  exact ⟨own, held, (Prod.mk.inj same).1, (Prod.mk.inj same).2⟩

/-- The head covers the records exactly if their filings are kept. -/
theorem covers_iff_kept {ledger : CassandraLedger} {entries : List Filed} (holdings : Holdings ledger entries) :
    (∀ own, ledger.ledgerHead.lookup DEFAULT_SHARD = some own ->
      (∀ record ∈ entries.map Prod.fst, record.seq ≤ own.seq -> InTables ledger record) ∧
        ∃ record ∈ entries.map Prod.fst, record.seq = own.seq ∧ record.chainHash = own.chainHash) ↔
      Kept (entries.map Prod.snd) := by
  rw [kept_iff_inTables holdings]
  rcases List.eq_nil_or_concat (entries.filter fun own => own.2.saved) with nothing | ⟨front, last, filtered⟩
  · have unsaved : ledger.ledgerHead.lookup DEFAULT_SHARD = none := by
      have head := holdings.head
      rw [nothing] at head
      simpa using head
    refine iff_of_true ?_ ?_
    · intro own found
      rw [unsaved] at found
      cases found
    · rintro before own after split ⟨other, member, saved⟩
      have impossible : other ∈ entries.filter fun own => own.2.saved := by
        rw [split]
        exact List.mem_filter.mpr ⟨List.mem_append_right _ member, saved⟩
      rw [nothing] at impossible
      cases impossible
  · rw [List.concat_eq_append] at filtered
    rcases holdings.head_of_saved filtered with ⟨own, held, seq, hash⟩
    have upTo : ∀ {before entry after}, entries = before ++ entry :: after ->
        (entry.1.seq ≤ own.seq ↔ ∃ other ∈ entry :: after, other.2.saved = true) := by
      intro before entry after split
      rw [seq]
      exact seq_le_lastSaved_iff (split ▸ holdings.increasing) (split ▸ filtered)
    constructor
    · intro covers before entry after split saved
      apply (covers own held).1 entry.1 _ ((upTo split).mpr saved)
      rw [split]
      exact List.mem_map_of_mem (f := Prod.fst) (List.mem_append_right _ List.mem_cons_self)
    · intro all other same
      rw [held] at same
      cases same
      have member : last ∈ entries := by
        apply List.mem_of_mem_filter (p := fun own => own.2.saved)
        rw [filtered]
        exact List.mem_append_right _ List.mem_cons_self
      refine ⟨?_, last.1, List.mem_map_of_mem member, seq.symm, hash.symm⟩
      intro record among below
      rcases List.mem_map.mp among with ⟨entry, inside, rfl⟩
      rcases List.append_of_mem inside with ⟨before, after, split⟩
      exact all before entry after split ((upTo split).mp below)

variable (P) in
/-- What the durable tier holds is on file. -/
def OnFile (filings : List Filing) (deployment : Deployment) : Prop :=
  ∃ ledger entries, deployment.store.ledger = some ledger ∧ entries.map Prod.fst = deployment.returned ∧
    entries.map Prod.snd = filings ∧ (∀ own ∈ entries, own.1.seq ≤ deployment.store.seq) ∧
    Holdings ledger entries

theorem filings_append (seen : List (Environment × AddCall)) (input : Environment × AddCall) :
    filings P (seen ++ [input]) = filings P seen ++
      if Sealable input.2 ∧ Fillable P input.2 then [filingOf input] else [] := by
  unfold filings
  rw [List.filter_append, List.map_append, List.filter_singleton]
  by_cases comes : Sealable input.2 ∧ Fillable P input.2
  · rw [if_pos comes, decide_eq_true comes]
    rfl
  · rw [if_neg comes, decide_eq_false comes]
    rfl

/-- An `add` is filed as its call and its environment say. -/
theorem onFile_attempt {deployment : Deployment} (placed : Placed P deployment)
    {seen : List (Environment × AddCall)} (onFile : OnFile (filings P seen) deployment)
    (input : Environment × AddCall) :
    OnFile (filings P (seen ++ [input])) (attempt P deployment input).2 := by
  rcases onFile with ⟨ledger, entries, present, returned, filed, bounded, holdings⟩
  unfold attempt
  rw [filings_append]
  rcases happen_add placed input.1 input.2 with
    ⟨others, same⟩ | ⟨-, others, link, next, same⟩ |
    ⟨sealable, fillable, link, record, next, appends, -, same⟩
  · rw [same, if_neg fun both => others both.1, List.append_nil]
    refine ⟨ledger.meets input.1, entries, ?_, returned, filed, bounded, holdings.meets input.1⟩
    exact Option.map_eq_some_iff.mpr ⟨ledger, present, rfl⟩
  · rw [same, if_neg fun both => others both.2, List.append_nil]
    refine ⟨ledger.meets input.1, entries, ?_, returned, filed, ?_, holdings.meets input.1⟩
    · exact Option.map_eq_some_iff.mpr ⟨ledger, present, rfl⟩
    · intro own member
      exact (bounded own member).trans (Int.le_add_one le_rfl)
  · rw [same, if_pos ⟨sealable, fillable⟩]
    rcases appends.named with ⟨txnId, named⟩
    have later : ∀ own ∈ entries, own.1.seq < record.seq := by
      intro own member
      rw [appends.seq]
      exact Int.lt_add_one_of_le (bounded own member)
    refine ⟨(ledger.meets input.1).persisted P record, entries ++ [(record, filingOf input)], ?_, ?_, ?_, ?_,
      holdings_persisted holdings named appends.txnId appends.stamp later⟩
    · exact Option.map_eq_some_iff.mpr ⟨ledger, present, rfl⟩
    · rw [List.map_append, returned]
      rfl
    · rw [List.map_append, filed]
      rfl
    · intro own member
      rcases List.mem_append.mp member with before | latest
      · exact (later own before).le
      · rw [List.mem_singleton.mp latest]
        exact le_rfl

/-- A deployment is covered exactly if what is on file is kept. -/
theorem covered_iff_kept {deployment : Deployment} {filings : List Filing} (onFile : OnFile filings deployment) :
    Covered deployment ↔ Kept filings := by
  rcases onFile with ⟨ledger, entries, present, returned, filed, -, holdings⟩
  rw [← filed, ← covers_iff_kept holdings, returned]
  unfold Covered
  rw [present]
  exact ⟨fun covered => covered ledger rfl, fun covers own same => by cases same; exact covers⟩

/-- What is kept of all filings is kept of the first ones. -/
theorem kept_of_prefix {seen all : List Filing} (before : seen <+: all) (kept : Kept all) : Kept seen := by
  rcases before with ⟨rest, rfl⟩
  rintro front own after rfl ⟨other, member, saved⟩
  have whole := kept front own (after ++ rest) (by rw [List.append_assoc, List.cons_append])
    ⟨other, by rw [← List.cons_append]; exact List.mem_append_left _ member, saved⟩
  exact ⟨whole.1, fun later inside => whole.2 later (List.mem_append_left _ inside)⟩

/-! ## The table by day -/

variable (P) in
/-- The table by day holds these records, which are a stretch of the chain. -/
structure Stretch (deployment : Deployment) (block : List CommitmentRecord) (head : PyStr) (seq : Int) : Prop where
  ledger : ∃ ledger, deployment.store.ledger = some ledger ∧ ledger.available = true ∧ Holds ledger block
  segment : Segment P deployment.store.signingKey head seq block

variable (P) in
/-- The stretch ends where the store is. -/
structure Growing (deployment : Deployment) (block : List CommitmentRecord) (head : PyStr) (seq : Int) : Prop
    extends Stretch P deployment block head seq where
  tip : LinkChain.tip CommitmentRecord.chainHash head block = deployment.store.head
  numbered : deployment.store.seq = seq + block.length

/-- A row that goes in behind the last one extends the stretch. -/
theorem holds_insert {ledger : CassandraLedger} {block : List CommitmentRecord}
    {record : CommitmentRecord} (holds : Holds ledger block)
    (later : ∀ other ∈ block, other.timestampNs < record.timestampNs) {next : CassandraLedger}
    (inserted : next.commitmentsByBucket =
      ledger.commitmentsByBucket.insert (recordKey record) (exportRow record)) :
    Holds next (block ++ [record]) := by
  have fresh : recordKey record ∉ ledger.commitmentsByBucket := by
    intro known
    rcases List.mem_map.mp known with ⟨entry, member, same⟩
    rcases List.mem_map.mp (holds.entries.mem_iff.mp member) with ⟨other, here, rfl⟩
    have stamps : other.timestampNs = record.timestampNs := by
      rw [← timestampNs_entryOf other, ← timestampNs_entryOf record]
      exact congrArg BucketKey.timestampNs same
    exact absurd stamps (Int.ne_of_lt (later other here))
  constructor
  · rw [inserted, AList.insert_of_notMem fresh, List.map_append]
    exact (holds.entries.cons _).trans (List.perm_append_singleton _ _).symm
  · refine List.pairwise_append.mpr ⟨holds.advancing, List.pairwise_singleton _ _, ?_⟩
    intro other member one here
    rw [List.mem_singleton.mp here]
    exact later other member

/-- A call that puts no row keeps the table. -/
theorem stretch_rowless {deployment : Deployment} (placed : Placed P deployment) {block : List CommitmentRecord}
    {head : PyStr} {seq : Int} (stretch : Stretch P deployment block head seq) {input : Environment × AddCall}
    (rowless : Sealable input.2 -> ¬PutsRow P input) : Stretch P (attempt P deployment input).2 block head seq := by
  rcases stretch with ⟨⟨ledger, present, available, holds⟩, segment⟩
  have meets : (inEnvironment input.1 deployment.store).ledger = some (ledger.meets input.1) :=
    Option.map_eq_some_iff.mpr ⟨ledger, present, rfl⟩
  unfold attempt
  rcases happen_add placed input.1 input.2 with
    ⟨-, same⟩ | ⟨-, -, link, next, same⟩ | ⟨sealable, fillable, link, record, next, appends, -, same⟩
  · rw [same]
    exact ⟨⟨_, meets, available, holds.entries, holds.advancing⟩, segment⟩
  · rw [same]
    exact ⟨⟨_, meets, available, holds.entries, holds.advancing⟩, segment⟩
  · rw [same]
    rcases appends.named with ⟨txnId, named⟩
    rcases (ledger.meets input.1).persisted_spec P named with ⟨bucket, -, -, online, -⟩
    have fails : input.1.fails (.insert .commitmentsByBucket) = true := by
      by_contra through
      exact rowless sealable ⟨fillable, by simpa using through⟩
    rw [takes_of_available available, fails, Bool.not_true, if_neg Bool.false_ne_true] at bucket
    refine ⟨⟨(ledger.meets input.1).persisted P record, ?_, online.trans available, ?_, holds.advancing⟩, segment⟩
    · exact Option.map_eq_some_iff.mpr ⟨ledger, present, rfl⟩
    · rw [bucket]
      exact holds.entries

/-- A call that puts a row, if it comes to a link, extends the stretch. -/
theorem growing_row {deployment : Deployment} (placed : Placed P deployment) {block : List CommitmentRecord}
    {head : PyStr} {seq : Int} (growing : Growing P deployment block head seq) {input : Environment × AddCall}
    (row : Sealable input.2 -> PutsRow P input)
    (later : Sealable input.2 -> ∀ record ∈ block, record.timestampNs < input.2.nowNs) :
    ∃ more, Growing P (attempt P deployment input).2 (block ++ more) head seq ∧
      ∀ record ∈ more, Sealable input.2 ∧ record.timestampNs = input.2.nowNs := by
  rcases growing.ledger with ⟨ledger, present, available, holds⟩
  have meets : (inEnvironment input.1 deployment.store).ledger = some (ledger.meets input.1) :=
    Option.map_eq_some_iff.mpr ⟨ledger, present, rfl⟩
  unfold attempt
  rcases happen_add placed input.1 input.2 with
    ⟨-, same⟩ | ⟨sealable, others, -⟩ | ⟨sealable, -, link, record, next, appends, -, same⟩
  · rw [same]
    refine ⟨[], ?_, fun _ member => (List.not_mem_nil member).elim⟩
    rw [List.append_nil]
    exact ⟨⟨⟨_, meets, available, holds.entries, holds.advancing⟩, growing.segment⟩, growing.tip, growing.numbered⟩
  · exact (others (row sealable).1).elim
  · rw [same]
    rcases appends.named with ⟨txnId, named⟩
    rcases (ledger.meets input.1).persisted_spec P named with ⟨bucket, -, -, online, -⟩
    rw [takes_of_available available, (row sealable).2, Bool.not_false, if_pos rfl,
      ← recordKey_of_named named] at bucket
    refine ⟨[record], ⟨⟨⟨(ledger.meets input.1).persisted P record, ?_, online.trans available, ?_⟩, ?_⟩, ?_, ?_⟩, ?_⟩
    · exact Option.map_eq_some_iff.mpr ⟨ledger, present, rfl⟩
    · refine holds_insert holds ?_ bucket
      rw [appends.stamp]
      exact later sealable
    · rw [segment_append]
      refine ⟨growing.segment, appends.honest, ?_, ?_, trivial⟩
      · rw [appends.prev, growing.tip]
      · rw [appends.seq, growing.numbered]
    · rw [LinkChain.tip_append]
      rfl
    · show record.seq = _
      rw [appends.seq, growing.numbered, List.length_append, List.length_singleton, Nat.cast_add, Nat.cast_one]
      omega
    · intro own member
      rw [List.mem_singleton.mp member]
      exact ⟨sealable, appends.stamp⟩

end Rows

/-! ## Runs -/

section Runs

variable {P}

theorem placed_attempts {deployment : Deployment} (placed : Placed P deployment)
    (inputs : List (Environment × AddCall)) : Placed P (Machine.run (attempt P) deployment inputs).2 :=
  Machine.invariant_run (Placed P) (fun _ input _ own => placed_happen own (.add input.1 input.2)) placed

/-- A run without rows keeps the table. -/
theorem stretch_run {deployment : Deployment} (placed : Placed P deployment) {block : List CommitmentRecord}
    {head : PyStr} {seq : Int} (stretch : Stretch P deployment block head seq)
    {inputs : List (Environment × AddCall)} (rowless : ∀ input ∈ inputs, Sealable input.2 -> ¬PutsRow P input) :
    Stretch P (Machine.run (attempt P) deployment inputs).2 block head seq := by
  apply And.right
  apply Machine.invariant_run
    (fun own : Deployment => Placed P own ∧ Stretch P own block head seq)
  · intro own input member both
    exact ⟨placed_happen both.1 (.add input.1 input.2), stretch_rowless both.1 both.2 (rowless input member)⟩
  · exact ⟨placed, stretch⟩

/-- A run in which every link has its row, and the clock advances, extends the stretch. -/
theorem growing_run {deployment : Deployment} (placed : Placed P deployment) {block : List CommitmentRecord}
    {head : PyStr} {seq : Int} (growing : Growing P deployment block head seq)
    {inputs : List (Environment × AddCall)} (rows : ∀ input ∈ inputs, Sealable input.2 -> PutsRow P input)
    (advancing : (inputs.filter fun input => decide (Sealable input.2)).Pairwise fun a b => a.2.nowNs < b.2.nowNs)
    (later : ∀ input ∈ inputs, Sealable input.2 -> ∀ record ∈ block, record.timestampNs < input.2.nowNs) :
    ∃ more, Growing P (Machine.run (attempt P) deployment inputs).2 (block ++ more) head seq := by
  induction inputs generalizing deployment block with
  | nil => exact ⟨[], by rw [List.append_nil]; exact growing⟩
  | cons input rest inductionHypothesis =>
      rcases growing_row placed growing (rows input List.mem_cons_self) (later input List.mem_cons_self) with
        ⟨first, next, stamps⟩
      have ordered : ∀ record ∈ first, ∀ other ∈ rest, Sealable other.2 -> record.timestampNs < other.2.nowNs := by
        intro record member other behind sealable
        rcases stamps record member with ⟨own, stamp⟩
        rw [List.filter_cons, if_pos (decide_eq_true own), List.pairwise_cons] at advancing
        rw [stamp]
        exact advancing.1 other (List.mem_filter.mpr ⟨behind, decide_eq_true sealable⟩)
      rcases inductionHypothesis (placed_happen placed (.add input.1 input.2)) next
        (fun other member => rows other (List.mem_cons_of_mem _ member))
        (advancing.sublist ((List.sublist_cons_self input rest).filter _))
        (by
          intro other member sealable record among
          rcases List.mem_append.mp among with old | new
          · exact later other (List.mem_cons_of_mem _ member) sealable record old
          · exact ordered record new other member sealable) with ⟨more, grown⟩
      refine ⟨first ++ more, ?_⟩
      rw [← List.append_assoc]
      exact grown

/-- Of an unbroken run every beginning is unbroken. -/
theorem unbroken_of_initial {seen inputs : List (Environment × AddCall)} (before : seen <+: inputs)
    (unbroken : Unbroken P inputs) : Unbroken P seen := by
  rcases before with ⟨rest, rfl⟩
  rcases unbroken with ⟨first, block, last, whole, rowless, rows, advancing⟩
  rw [List.filter_append, List.append_eq_append_iff] at whole
  rcases whole with ⟨more, cut, -⟩ | ⟨more, cut, tail⟩
  · -- the beginning ends before the first row
    refine ⟨seen.filter fun input => decide (Sealable input.2), [], [], by simp, ?_, by simp, List.Pairwise.nil⟩
    intro input member
    apply rowless
    rw [List.append_nil] at member
    rw [cut]
    exact List.mem_append_left _ (List.mem_append_left _ member)
  · rw [eq_comm, List.append_eq_append_iff] at tail
    rcases tail with ⟨further, same, -⟩ | ⟨further, same, ends⟩
    · refine ⟨first, more, [], by rw [cut, List.append_nil], ?_, ?_, ?_⟩
      · intro input member
        rw [List.append_nil] at member
        exact rowless input (List.mem_append_left _ member)
      · intro input member
        exact rows input (same ▸ List.mem_append_left _ member)
      · rw [same] at advancing
        exact (List.pairwise_append.mp advancing).1
    · refine ⟨first, block, further, by rw [cut, same], ?_, rows, advancing⟩
      intro input member
      apply rowless
      rw [ends]
      rcases List.mem_append.mp member with early | late
      · exact List.mem_append_left _ early
      · exact List.mem_append_right _ (List.mem_append_left _ late)

/-- After an unbroken run the table by day holds a stretch of the chain. -/
theorem stretch_of_unbroken {deployment : Deployment} (placed : Placed P deployment) {head : PyStr} {seq : Int}
    (empty : Stretch P deployment [] head seq) {inputs : List (Environment × AddCall)}
    (unbroken : Unbroken P inputs) :
    ∃ block head seq, Stretch P (Machine.run (attempt P) deployment inputs).2 block head seq := by
  rcases unbroken with ⟨first, block, last, whole, rowless, rows, advancing⟩
  rcases List.filter_eq_append_iff.mp whole with ⟨early, rest, rfl, rfl, tail⟩
  rcases List.filter_eq_append_iff.mp tail with ⟨middle, late, rfl, rfl, rfl⟩
  have listed : ∀ {part : List (Environment × AddCall)} {input : Environment × AddCall}, input ∈ part ->
      Sealable input.2 -> input ∈ part.filter fun input => decide (Sealable input.2) :=
    fun member sealable => List.mem_filter.mpr ⟨member, decide_eq_true sealable⟩
  have before : ∀ input ∈ early, Sealable input.2 -> ¬PutsRow P input := fun input member sealable =>
    rowless input (List.mem_append_left _ (listed member sealable))
  have begun := stretch_run placed empty before
  have placedThen := placed_attempts placed early
  rw [Machine.run_append, Machine.run_append]
  generalize (Machine.run (attempt P) deployment early).2 = begin at begun placedThen
  have start : Growing P begin [] begin.store.head begin.store.seq := ⟨⟨begun.ledger, trivial⟩, rfl, by simp⟩
  have within : ∀ input ∈ middle, Sealable input.2 -> PutsRow P input := fun input member sealable =>
    rows input (listed member sealable)
  rcases growing_run placedThen start within advancing
    (fun _ _ _ _ member => (List.not_mem_nil member).elim) with ⟨more, grown⟩
  refine ⟨_, _, _, stretch_run (placed_attempts placedThen middle) grown.toStretch ?_⟩
  intro input member sealable
  exact rowless input (List.mem_append_right _ (listed member sealable))

end Runs

variable (environment : Environment) (keys : ProcessKeys) (ringSize : Nat)

/-- A first process over an empty ledger. -/
def firstProcess : Deployment := started P keys ringSize (some (.empty environment))

theorem placed_firstProcess : Placed P (firstProcess P environment keys ringSize) :=
  placed_started P keys ringSize (by rintro own ⟨⟩; rfl)

theorem onFile_run (inputs : List (Environment × AddCall)) :
    OnFile (filings P inputs) (Machine.run (attempt P) (firstProcess P environment keys ringSize) inputs).2 := by
  induction inputs using List.reverseRecOn with
  | nil =>
      refine ⟨.empty environment, [], rfl, rfl, rfl, fun _ member => (List.not_mem_nil member).elim, rfl,
        fun _ member => (List.not_mem_nil member).elim, List.Pairwise.nil, ?_, ?_, rfl⟩
      · constructor
        · intro key columns found
          cases found
        · intro txnId columns found
          cases found
      · intro before own after split
        simp at split
  | append_singleton seen input inductionHypothesis =>
      rw [Machine.run_append]
      exact onFile_attempt (placed_attempts (placed_firstProcess P environment keys ringSize) seen)
        inductionHypothesis input

/-- In every run of `add` calls over an empty ledger, in which every statement
may go through or raise: the head covers after every call exactly if what the
run files is kept, and if its rows are unbroken, no audit of the durable tier
finds a break that reads the buckets of two days in a row. -/
theorem head_covered (inputs : List (Environment × AddCall)) :
    ((∀ seen, seen <+: inputs ->
        Covered (Machine.run (attempt P) (firstProcess P environment keys ringSize) seen).2) ↔
      Kept (filings P inputs)) ∧
    (Unbroken P inputs -> ∀ seen, seen <+: inputs -> ∀ ledger,
      (Machine.run (attempt P) (firstProcess P environment keys ringSize) seen).2.store.ledger = some ledger ->
        ∀ reading, Adjacent reading.nowNs 2 -> ∀ limit, ∃ report, verifyChain P ((ledger.meets reading).recent limit 2) = .ok report ∧
          report.intact = true) := by
  have covered := fun seen => covered_iff_kept (onFile_run P environment keys ringSize seen)
  constructor
  · constructor
    · intro all
      exact (covered inputs).mp (all inputs (List.prefix_refl _))
    · intro kept seen before
      apply (covered seen).mpr
      exact kept_of_prefix ((before.filter _).map _) kept
  · intro unbroken seen before ledger present reading adjacent limit
    have empty : Stretch P (firstProcess P environment keys ringSize) [] GENESIS_HASH 0 :=
      ⟨⟨.empty environment, rfl, rfl, List.Perm.refl _, List.Pairwise.nil⟩, trivial⟩
    rcases stretch_of_unbroken (placed_firstProcess P environment keys ringSize) empty
      (unbroken_of_initial before unbroken) with ⟨block, head, seq, ⟨⟨own, held, -, holds⟩, segment⟩⟩
    rw [held] at present
    cases present
    have same : Holds (ledger.meets reading) block := ⟨holds.entries, holds.advancing⟩
    exact audit_of_holds P same segment adjacent limit

/-! ## A write that fails -/

/-- The environment of an `add` whose first `INSERT` raises. -/
def unwritable : Environment :=
  ⟨fun statement => decide (statement = .insert .commitmentsByBucket), 2⟩

/-- Two transactions, of which the second one is not written. -/
def secondUnwritten : List (Environment × AddCall) :=
  [(healthy, (callFor "TXN-A").toAddCall), (unwritable, (callFor "TXN-B").toAddCall)]

theorem filings_secondUnwritten :
    filings samplePlatform secondUnwritten =
      [⟨Json.text "TXN-A", 1, true, true, true⟩, ⟨Json.text "TXN-B", 1, false, false, true⟩] := by
  have comes : ∀ input ∈ secondUnwritten,
      decide (Sealable input.2 ∧ Fillable samplePlatform input.2) = true := by
    intro input member
    apply decide_eq_true
    have wellFormed : WellFormed (callFor "TXN-A").toAddCall (PyStr.ofString "TXN-A") := wellFormed_callFor ⟨_, rfl⟩
    have wellFormed' : WellFormed (callFor "TXN-B").toAddCall (PyStr.ofString "TXN-B") := wellFormed_callFor ⟨_, rfl⟩
    rcases List.mem_cons.mp member with rfl | last
    · exact ⟨sealable_of_wellFormed wellFormed, fillable_of_regular _ wellFormed.regular⟩
    · rw [List.mem_singleton.mp last]
      exact ⟨sealable_of_wellFormed wellFormed', fillable_of_regular _ wellFormed'.regular⟩
  unfold filings
  rw [List.filter_eq_self.mpr comes]
  rfl

/-- The head is saved although the record was not written. -/
theorem head_runs_ahead :
    ∃ final ledger own record,
      (Machine.run (attempt samplePlatform) (firstProcess samplePlatform healthy sampleKeys HOT_RING_SIZE)
        secondUnwritten).2 = final ∧ final.store.ledger = some ledger ∧
      ledger.ledgerHead.lookup DEFAULT_SHARD = some own ∧
      record ∈ final.returned ∧ record.seq = own.seq ∧ ¬InTables ledger record := by
  rcases onFile_run samplePlatform healthy sampleKeys HOT_RING_SIZE secondUnwritten with
    ⟨ledger, entries, present, returned, filed, -, holdings⟩
  rw [filings_secondUnwritten] at filed
  rcases List.map_eq_cons_iff.mp filed with ⟨first, rest, rfl, one, more⟩
  rcases List.map_eq_cons_iff.mp more with ⟨second, none, rfl, two, nothing⟩
  cases List.map_eq_nil_iff.mp nothing
  have head := holdings.head
  rw [List.filter_eq_self.mpr (by simp [one, two])] at head
  rcases Option.map_eq_some_iff.mp head with ⟨own, found, same⟩
  refine ⟨_, ledger, own, second.1, rfl, present, found, ?_, (Prod.mk.inj same).1.symm, ?_⟩
  · rw [← returned]
    simp
  · intro inside
    have written := ((holdings.tables [first] second [] rfl).mp inside).1
    rw [two] at written
    cases written

end Cassandra
end ZeroAudit
