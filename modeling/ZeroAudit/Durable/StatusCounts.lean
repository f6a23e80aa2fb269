import ZeroAudit.Durable.Book

namespace ZeroAudit
namespace Cassandra

open Foundation Commitment

/-!
# The status counts

The store counts its records by status and never counts again.  An `add` counts
the new record, and a transition moves one record from the old count to the new
one, if the ring still has it.  A transition that is made in the ledger alone
leaves the counts where they were, so that they are right exactly as long as no
such transition changes the status of a transaction.
-/

variable (P : Platform)

/-! ## Counting the book -/

/-- The transactions of the book with this status. -/
def Book.tally (book : Book) (status : Status) : Nat :=
  book.countP fun entry => decide (entry.2.status = status)

/-- Every transaction has one status. -/
theorem tally_sum (book : Book) :
    book.tally .pending + book.tally .verified + book.tally .quarantined + book.tally .rejected =
      book.length := by
  unfold Book.tally
  induction book with
  | nil => rfl
  | cons entry rest inductionHypothesis =>
      simp only [List.countP_cons, List.length_cons]
      cases entry.2.status with
      | pending => simp; omega
      | verified => simp; omega
      | quarantined => simp; omega
      | rejected => simp; omega

/-- A transaction that is new counts under its status. -/
theorem tally_upsert_of_fresh {book : Book} {id : PyStr} (fresh : id ∉ book.map Prod.fst)
    (record : CommitmentRecord) (status : Status) :
    Book.tally (Retention.upsert id record book) status =
      if status = record.status then book.tally status + 1 else book.tally status := by
  unfold Book.tally
  rw [Retention.upsert_of_fresh record fresh, List.countP_append, List.countP_singleton]
  by_cases same : status = record.status
  · simp [same]
  · simp [same, Ne.symm same]

/-- A transaction that is marked counts under its new status, and no longer under the
old one. -/
theorem tally_mark {book : Book} {id : PyStr} {record : CommitmentRecord}
    (found : Retention.lookup id book = some record) (new status : Status) :
    (book.mark id new).tally status = recount book.tally record.status new status := by
  have moved := Retention.countP_upsert_of_found found { record with status := new }
    fun own => decide (own.status = status)
  have counted : record.status = status -> 0 < book.tally status := by
    intro same
    apply List.countP_pos_iff.mpr
    exact ⟨_, Retention.mem_of_lookup found, decide_eq_true same⟩
  unfold Book.mark recount
  rw [found, Option.map_some, Option.getD_some]
  unfold Book.tally at counted ⊢
  by_cases old : status = record.status
  · have positive := counted old.symm
    by_cases next : status = new
    · simp only [← old, ← next, decide_true, if_true] at moved ⊢
      omega
    · simp only [← old, Ne.symm next, decide_true, decide_false, if_true, if_false, next,
        Bool.false_eq_true] at moved ⊢
      omega
  · by_cases next : status = new
    · simp only [← next, Ne.symm old, old, decide_true, decide_false, if_true, if_false,
        Bool.false_eq_true] at moved ⊢
      omega
    · simp only [Ne.symm old, Ne.symm next, old, next, decide_false, if_false, Bool.false_eq_true]
        at moved ⊢
      omega

/-! ## Balance -/

/-- The four counts make up the total, and each is the number of added transactions whose
current status it counts. -/
structure Balanced (audited : Audited) : Prop where
  total : audited.store.counts .pending + audited.store.counts .verified +
    audited.store.counts .quarantined + audited.store.counts .rejected = audited.store.total
  each : ∀ status, audited.store.counts status = audited.book.tally status

/-- The ids that these requests add. -/
def addedIds (inputs : List (Environment × Request)) : List Json :=
  inputs.filterMap fun input => match input.2 with
    | .add call => some call.txnId
    | .mark _ _ => none

/-- A transition that the ring knows nothing of, and the ledger makes, sets the status
that the transaction already has. -/
def Tracked (audited : Audited) : Environment × Request -> Prop
  | (environment, .mark transition txnId) =>
      ringGet audited.store.hot txnId = none ->
      (audited.store.ledger.any fun ledger => (ledger.meets environment).takes .updateStatus) = true ->
        ∀ id record, txnId = .str id -> (id, record) ∈ audited.book -> record.status = transition.status
  | _ => True

/-- What holds in any case: each of the transactions was added once, and will not be
added again. -/
structure Distinct (inputs : List (Environment × Request)) (audited : Audited) : Prop where
  held : Held audited
  counted : audited.store.total = audited.book.length
  apart : (addedIds inputs).Nodup
  fresh : ∀ id, .str id ∈ addedIds inputs -> id ∉ audited.book.map Prod.fst

section Step

variable {P} {audited : Audited}

theorem balanced_iff_each {inputs : List (Environment × Request)} (distinct : Distinct inputs audited) :
    Balanced audited ↔ ∀ status, audited.store.counts status = audited.book.tally status := by
  constructor
  · exact Balanced.each
  · intro each
    refine ⟨?_, each⟩
    rw [each, each, each, each, tally_sum, distinct.counted]

theorem addedIds_add (environment : Environment) (call : AddCall) (rest : List (Environment × Request)) :
    addedIds ((environment, .add call) :: rest) = call.txnId :: addedIds rest := rfl

theorem addedIds_mark (environment : Environment) (transition : Transition) (txnId : Json)
    (rest : List (Environment × Request)) :
    addedIds ((environment, .mark transition txnId) :: rest) = addedIds rest := rfl

/-- The book after a transition of a text. -/
theorem follow_mark (environment : Environment) (transition : Transition) (id : PyStr) :
    (follow P audited (environment, .mark transition (.str id))).2.book =
      if ((ringGet audited.store.hot (.str id)).isSome || audited.store.ledger.any fun ledger =>
          (ledger.meets environment).takes .updateStatus) = true then audited.book.mark id transition.status
      else audited.book := by
  have answer : ∀ ledger : CassandraLedger, (statusCall (ledger.meets environment) (.str id)
      transition.status).1 = (ledger.meets environment).takes .updateStatus :=
    fun ledger => (statusCall_spec (ledger.meets environment) id transition.status).1
  unfold follow
  rw [serveIn_mark]
  dsimp only
  simp only [answer]
  split
  · next done => rw [done, Book.enter]
  · next refused =>
      rw [Bool.not_eq_true] at refused
      rw [refused, enter_refused]

theorem distinct_follow {environment : Environment} {request : Request}
    {rest : List (Environment × Request)} (distinct : Distinct ((environment, request) :: rest) audited) :
    Distinct rest (follow P audited (environment, request)).2 := by
  have held := held_follow distinct.held (environment, request) (P := P)
  rcases distinct with ⟨before, counted, apart, fresh⟩
  cases request with
  | add call =>
      rw [addedIds_add, List.nodup_cons] at apart
      rw [addedIds_add] at fresh
      have later : ∀ id, .str id ∈ addedIds rest -> id ∉ audited.book.map Prod.fst :=
        fun id member => fresh id (List.mem_cons_of_mem _ member)
      unfold follow at held ⊢
      rcases serveIn_add P environment audited.store call with
        ⟨error, served⟩ | ⟨error, chainHash, -, served⟩ | ⟨record, id, named, called, -, -, served⟩
      · rw [served] at held ⊢
        exact ⟨held, counted, apart.2, later⟩
      · rw [served] at held ⊢
        exact ⟨held, counted, apart.2, later⟩
      · rw [served] at held ⊢
        simp only [Book.enter, named] at held ⊢
        rw [called] at fresh apart
        have new := fresh id List.mem_cons_self
        refine ⟨held, ?_, apart.2, ?_⟩
        · rw [Retention.upsert_of_fresh record new, List.length_append, List.length_singleton, ← counted]
          rfl
        · intro own member entered
          rcases Retention.mem_keys_upsert.mp entered with rfl | old
          · exact apart.1 member
          · exact later own member old
  | mark transition txnId =>
      rw [addedIds_mark] at apart fresh
      have total : (follow P audited (environment, .mark transition txnId)).2.store.total =
          audited.store.total := by
        unfold follow
        rw [serveIn_mark]
      by_cases text : ∃ id, txnId = .str id
      · rcases text with ⟨id, rfl⟩
        refine ⟨held, ?_, apart, ?_⟩
        · rw [total, follow_mark, counted]
          split
          · rw [length_mark]
          · rfl
        · rw [follow_mark]
          split
          · rw [keys_mark]
            exact fresh
          · exact fresh
      · rw [follow_mark_of_other P environment before.within transition fun id same => text ⟨id, same⟩]
          at held ⊢
        exact ⟨held, counted, apart, fresh⟩

theorem counts_follow_mark (environment : Environment) (transition : Transition) (txnId : Json) :
    (follow P audited (environment, .mark transition txnId)).2.store.counts =
      ((ringGet audited.store.hot txnId).map fun record =>
        recount audited.store.counts record.status transition.status).getD audited.store.counts := by
  unfold follow
  rw [serveIn_mark]

/-- An `add` of a new transaction counts what it enters. -/
theorem counts_follow_add {environment : Environment} {call : AddCall}
    (fresh : ∀ id, call.txnId = .str id -> id ∉ audited.book.map Prod.fst)
    (each : ∀ status, audited.store.counts status = audited.book.tally status) (status : Status) :
    (follow P audited (environment, .add call)).2.store.counts status =
      (follow P audited (environment, .add call)).2.book.tally status := by
  unfold follow
  rcases serveIn_add P environment audited.store call with
    ⟨error, served⟩ | ⟨error, chainHash, -, served⟩ | ⟨record, id, named, called, -, -, served⟩
  · rw [served]
    exact each status
  · rw [served]
    exact each status
  · rw [served]
    simp only [Book.enter, named]
    rw [tally_upsert_of_fresh (fresh id called), ← each]
    rfl

/-- Marking an entry leaves all tallies alone exactly if it has the status already. -/
theorem tally_mark_iff {book : Book} {id : PyStr} {record : CommitmentRecord}
    (found : Retention.lookup id book = some record) (new : Status) :
    (∀ status, book.tally status = (book.mark id new).tally status) ↔ record.status = new := by
  constructor
  · intro same
    by_contra changed
    have moved := same new
    rw [tally_mark found, recount, if_pos rfl, if_neg (Ne.symm changed)] at moved
    omega
  · rintro rfl status
    rw [tally_mark found, recount]
    split
    · next same =>
        have positive : 0 < book.tally status :=
          List.countP_pos_iff.mpr ⟨_, Retention.mem_of_lookup found, decide_eq_true same.symm⟩
        omega
    · rfl

/-- A transition that the ring knows nothing of leaves the counts, and has to leave the
tallies of the book. -/
theorem tally_follow_iff {environment : Environment} {transition : Transition} {id : PyStr}
    (unique : (audited.book.map Prod.fst).Nodup)
    (found : ringGet audited.store.hot (.str id) = none) :
    (∀ status, audited.book.tally status =
        (follow P audited (environment, .mark transition (.str id))).2.book.tally status) ↔
      Tracked audited (environment, .mark transition (.str id)) := by
  rw [follow_mark, found, Option.isSome_none, Bool.false_or]
  cases reached : audited.store.ledger.any fun ledger => (ledger.meets environment).takes .updateStatus with
  | false =>
      refine iff_of_true (fun _ => rfl) ?_
      intro _ taken
      rw [reached] at taken
      cases taken
  | true =>
      rw [if_pos rfl]
      cases entry : Retention.lookup id audited.book with
      | none =>
          rw [mark_of_absent entry]
          refine iff_of_true (fun _ => rfl) ?_
          intro _ _ own record equal member
          cases equal
          exact (Retention.lookup_eq_none_iff.mp entry (List.mem_map.mpr ⟨_, member, rfl⟩)).elim
      | some record =>
          rw [tally_mark_iff entry]
          constructor
          · intro current _ _ own other equal member
            cases equal
            have same := entry.symm.trans (Retention.lookup_of_mem unique member)
            cases same
            exact current
          · intro tracked
            exact tracked found reached id record rfl (Retention.mem_of_lookup entry)

/-- A request keeps the balance exactly if it is tracked. -/
theorem balanced_follow_iff {environment : Environment} {request : Request}
    {rest : List (Environment × Request)} (distinct : Distinct ((environment, request) :: rest) audited)
    (balanced : Balanced audited) :
    Balanced (follow P audited (environment, request)).2 ↔ Tracked audited (environment, request) := by
  rw [balanced_iff_each (distinct_follow distinct)]
  rcases distinct with ⟨⟨unique, within⟩, -, -, fresh⟩
  have each := balanced.each
  cases request with
  | add call =>
      refine iff_of_true (counts_follow_add ?_ each) trivial
      intro id called
      exact fresh id (by rw [addedIds_add, called]; exact List.mem_cons_self)
  | mark transition txnId =>
      rw [counts_follow_mark]
      cases found : ringGet audited.store.hot txnId with
      | some record =>
          -- ring and book lose and gain the same record
          rcases within.key found with ⟨id, rfl, member⟩
          refine iff_of_true ?_ (fun missing => by rw [found] at missing; cases missing)
          intro status
          rw [follow_mark, found, Option.isSome_some, Bool.true_or, if_pos rfl, Option.map_some,
            Option.getD_some, tally_mark (Retention.lookup_of_mem unique member)]
          unfold recount
          rw [each]
      | none =>
          rw [Option.map_none, Option.getD_none]
          by_cases text : ∃ id, txnId = .str id
          · rcases text with ⟨id, rfl⟩
            simp only [each]
            exact tally_follow_iff unique found
          · have other : ∀ id, txnId ≠ .str id := fun id same => text ⟨id, same⟩
            rw [follow_mark_of_other P environment within transition other]
            exact iff_of_true each fun _ _ id _ same _ => (other id same).elim

end Step

/-! ## Runs -/

variable {P} in
theorem balanced_run_iff {audited : Audited} {inputs : List (Environment × Request)}
    (distinct : Distinct inputs audited) (balanced : Balanced audited) :
    (∀ seen, seen <+: inputs -> Balanced (Machine.run (follow P) audited seen).2) ↔
      Machine.Along (follow P) Tracked audited inputs :=
  Machine.observed_along_iff Distinct Balanced Tracked
    (fun _ _ _ distinct => distinct_follow distinct)
    (fun _ _ _ distinct balanced => balanced_follow_iff distinct balanced) distinct balanced

/-- A new store, before anything was entered in its book. -/
def opened (ledger : Option CassandraLedger) (ringSize : Nat) (keypair : Lwe.LWEKeyPair)
    (masterKey : Bytes) (signingKey : Signature.SigningKey) : Audited :=
  ⟨.new (calls P) ledger ringSize keypair masterKey signingKey, []⟩

theorem distinct_opened {inputs : List (Environment × Request)} (apart : (addedIds inputs).Nodup)
    (ledger : Option CassandraLedger) (ringSize : Nat) (keypair : Lwe.LWEKeyPair) (masterKey : Bytes)
    (signingKey : Signature.SigningKey) :
    Distinct inputs (opened P ledger ringSize keypair masterKey signingKey) where
  held := ⟨List.nodup_nil, [], rfl, List.nodup_nil, fun _ member => (List.not_mem_nil member).elim⟩
  counted := rfl
  apart := apart
  fresh _ _ := List.not_mem_nil

/-- In every run over distinct transactions, for any size of the ring and in any
environments: the counts make up the total and agree with the current statuses in every
state, exactly if every transition that is made in the ledger alone changes nothing. -/
theorem counts_track_ledger_iff {inputs : List (Environment × Request)} (apart : (addedIds inputs).Nodup)
    (ledger : Option CassandraLedger) (ringSize : Nat) (keypair : Lwe.LWEKeyPair) (masterKey : Bytes)
    (signingKey : Signature.SigningKey) :
    (∀ seen, seen <+: inputs -> Balanced (Machine.run (follow P)
        (opened P ledger ringSize keypair masterKey signingKey) seen).2) ↔
      Machine.Along (follow P) Tracked (opened P ledger ringSize keypair masterKey signingKey) inputs :=
  balanced_run_iff (distinct_opened P apart ledger ringSize keypair masterKey signingKey)
    ⟨rfl, fun _ => rfl⟩

/-! ## A transition that is not counted -/

/-- A sample call on a store with the sample keypair is committed as verified. -/
theorem follow_callFor {audited : Audited} {id : String}
    (encodable : ∃ bytes, PyStr.utf8 (PyStr.ofString id) = some bytes)
    (keypair : audited.store.keypair = .generate samplePlatform Sample.latticeSeed)
    (head : IsDigest audited.store.head) (environment : Environment) :
    ∃ record, record.txnId = Json.text id ∧ record.status = .verified ∧
      IsDigest record.chainHash ∧
      (follow samplePlatform audited (environment, .add (callFor id).toAddCall)).2 =
        ⟨committed samplePlatform environment audited.store record,
          Retention.upsert (PyStr.ofString id) record audited.book⟩ := by
  rcases add_wellFormed samplePlatform (inEnvironment environment audited.store) (calls samplePlatform)
    (wellFormed_callFor encodable) (rfl : Sample.latticeSeed.length = Lwe.SEED_LEN) keypair head with
    ⟨record, appends, added⟩
  rcases status_of_add samplePlatform _ (calls samplePlatform) added with ⟨-, above, compared, status⟩
  have below : above = false := by
    have decided : (callFor id).anomalyScore.ge (callFor id).threshold = .ok false :=
      congrArg Except.ok (by decide +kernel : PyFloat.ge .zero (.finite (3 / 4)) = false)
    rw [decided] at compared
    cases compared
    rfl
  rw [below] at status
  have served : serveIn samplePlatform audited.store (environment, .add (callFor id).toAddCall) =
      (.committed (.ok record), committed samplePlatform environment audited.store record) := by
    unfold serveIn serve
    dsimp only
    rw [added, persist_inEnvironment]
  have named : record.txnId = .str (PyStr.ofString id) := appends.txnId
  refine ⟨record, named, status, appends.honest.chainHash_isDigest, ?_⟩
  unfold follow
  rw [served]
  simp only [Book.enter, named]

/-- A committed record changes nothing about which statements go through. -/
theorem takes_committed (environment later : Environment) (statement : Statement)
    {store : CommitmentStore CassandraLedger} {record : CommitmentRecord} {id : PyStr}
    (named : record.txnId = .str id) :
    ((committed P environment store record).ledger.any fun ledger =>
        (ledger.meets later).takes statement) =
      store.ledger.any fun ledger => (ledger.meets later).takes statement := by
  unfold committed
  dsimp only
  cases store.ledger with
  | none => rfl
  | some ledger =>
      rcases (ledger.meets environment).persisted_spec P named with ⟨-, -, -, available, -⟩
      show (((ledger.meets environment).persisted P record).available && _) = (ledger.available && _)
      rw [available]
      rfl

/-- Two transactions on a ring for one, and a transition of the first. -/
def lateTransition : List (Environment × Request) :=
  [(healthy, .add (callFor "TXN-A").toAddCall), (healthy, .add (callFor "TXN-B").toAddCall),
    (healthy, .mark .quarantine (Json.text "TXN-A"))]

def smallRing : Audited :=
  opened samplePlatform (some (.empty healthy)) 1 (.generate samplePlatform Sample.latticeSeed) [] sampleKey

theorem apart_lateTransition : (addedIds lateTransition).Nodup := by
  have different : Json.text "TXN-A" ≠ Json.text "TXN-B" := by
    intro same
    exact absurd (Json.str.inj same) (by decide)
  show [Json.text "TXN-A", Json.text "TXN-B"].Nodup
  simp [different]

theorem counts_track_ledger_iff_sample :
    (∀ seen, seen <+: lateTransition -> Balanced (Machine.run (follow samplePlatform) smallRing seen).2) ↔
      Machine.Along (follow samplePlatform) Tracked smallRing lateTransition :=
  counts_track_ledger_iff samplePlatform apart_lateTransition (some (.empty healthy)) 1
    (.generate samplePlatform Sample.latticeSeed) [] sampleKey

/-- The transition is made, and the counts still say verified. -/
theorem late_transition_uncounted :
    ¬∀ seen, seen <+: lateTransition -> Balanced (Machine.run (follow samplePlatform) smallRing seen).2 := by
  intro always
  have distinct : Distinct lateTransition smallRing :=
    distinct_opened samplePlatform apart_lateTransition _ 1 _ [] sampleKey
  have along := (balanced_run_iff distinct ⟨rfl, fun _ => rfl⟩).mp always
  have tracked := along.2.2.1
  rcases follow_callFor (⟨_, rfl⟩ : ∃ bytes, PyStr.utf8 (PyStr.ofString "TXN-A") = some bytes)
    (rfl : smallRing.store.keypair = _) isDigest_genesis healthy with ⟨first, named, verified, digest, one⟩
  rw [one] at tracked
  rcases follow_callFor (⟨_, rfl⟩ : ∃ bytes, PyStr.utf8 (PyStr.ofString "TXN-B") = some bytes)
    (rfl : (⟨committed samplePlatform healthy smallRing.store first,
      Retention.upsert (PyStr.ofString "TXN-A") first smallRing.book⟩ : Audited).store.keypair = _)
    digest healthy with ⟨second, named', -, -, two⟩
  rw [two] at tracked
  have ids : PyStr.ofString "TXN-A" ≠ PyStr.ofString "TXN-B" := by decide
  have evicted : ringGet (committed samplePlatform healthy
      (committed samplePlatform healthy smallRing.store first) second).hot (Json.text "TXN-A") = none := by
    show ringGet
      (ringEvict 1 (ringSet (ringEvict 1 (ringSet [] first.txnId first)) second.txnId second)) _ = _
    rw [named, named']
    simp [ringEvict, ringSet, ringGet, Json.text, Json.eqScalar, ids, Ne.symm ids]
  have taken : ((committed samplePlatform healthy
      (committed samplePlatform healthy smallRing.store first) second).ledger.any fun ledger =>
        (ledger.meets healthy).takes .updateStatus) = true := by
    rw [takes_committed samplePlatform _ _ _ named', takes_committed samplePlatform _ _ _ named]
    rfl
  have member : (PyStr.ofString "TXN-A", first) ∈ Retention.upsert (PyStr.ofString "TXN-B") second
      (Retention.upsert (PyStr.ofString "TXN-A") first []) := by
    simp [Retention.upsert, ids]
  have unchanged : first.status = .quarantined := tracked evicted taken _ first rfl member
  rw [verified] at unchanged
  cases unchanged

end Cassandra
end ZeroAudit
