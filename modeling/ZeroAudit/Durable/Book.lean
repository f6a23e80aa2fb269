import ZeroAudit.Chain.Atomicity
import ZeroAudit.Durable.Tables
import ZeroAudit.Foundation.Retention

namespace ZeroAudit
namespace Cassandra

open Foundation Commitment

/-!
# The book of a store

What the callers of a store were told is kept in a book: every transaction that
was committed, with the record that came last under its id, in the status that
the transitions since have given it.  The ring is a copy of some entries of the
book.  It may forget one, but it never disagrees with one.
-/

variable (P : Platform)

/-! ## Requests in an environment -/

/-- One request, in the environment it meets. -/
def serveIn (store : CommitmentStore CassandraLedger) (input : Environment × Request) :
    Answer × CommitmentStore CassandraLedger :=
  serve P (calls P) statusCall (inEnvironment input.1 store) input.2

section Serve

variable (environment : Environment) (store : CommitmentStore CassandraLedger)

/-- An `add` raises and leaves the store in its place or stranded, or comes to an
honest record that it has tried to persist. -/
theorem serveIn_add (call : AddCall) :
    (∃ error, serveIn P store (environment, .add call) =
      (.committed (.error error), inEnvironment environment store)) ∨
    (∃ error chainHash, IsDigest chainHash ∧ serveIn P store (environment, .add call) =
      (.committed (.error error), (inEnvironment environment store).stranded chainHash)) ∨
    ∃ record id, record.txnId = .str id ∧ call.txnId = .str id ∧ Appends P store call record ∧
      (record.txnType = call.txnType ∧ record.flagReason = call.flagReason ∧
        record.sigAlg = PyStr.ofString "Ed25519") ∧
      serveIn P store (environment, .add call) =
        (.committed (.ok record), committed P environment store record) := by
  unfold serveIn serve
  dsimp only
  rcases add_outcome P (inEnvironment environment store) (calls P) call with
    ⟨error, added⟩ | ⟨error, chainHash, digest, -, added⟩ | ⟨record, appends, added⟩
  · exact Or.inl ⟨error, by rw [added]⟩
  · exact Or.inr (Or.inl ⟨error, chainHash, digest, by rw [added]⟩)
  · rcases appends.named with ⟨id, named⟩
    refine Or.inr (Or.inr ⟨record, id, named, appends.txnId.symm.trans named,
      appends_of_inEnvironment P appends, columns_of_add P _ (calls P) added, ?_⟩)
    rw [added, persist_inEnvironment]

/-- A transition marks the record in the ring and the row of the ledger. -/
theorem serveIn_mark (transition : Transition) (txnId : Json) :
    serveIn P store (environment, .mark transition txnId) =
      (.marked ((ringGet store.hot txnId).isSome || store.ledger.any fun ledger =>
          (statusCall (ledger.meets environment) txnId transition.status).1),
        { store with
          hot := ((ringGet store.hot txnId).map fun record =>
            ringSet store.hot txnId { record with status := transition.status }).getD store.hot
          counts := ((ringGet store.hot txnId).map fun record =>
            recount store.counts record.status transition.status).getD store.counts
          ledger := store.ledger.map fun ledger =>
            (statusCall (ledger.meets environment) txnId transition.status).2 }) := by
  rcases setStatus_outcome statusCall (inEnvironment environment store) txnId transition.status with
    ⟨answer, marked⟩
  unfold serveIn
  rw [serve_mark, answer, marked]
  unfold inEnvironment
  simp only [Option.any_map, Option.map_map]
  rfl

end Serve

/-- The answer to a status update, and the table by transaction after it. -/
theorem statusCall_spec (ledger : CassandraLedger) (id : PyStr) (status : Status) :
    (statusCall ledger (.str id) status).1 = ledger.takes .updateStatus ∧
      (statusCall ledger (.str id) status).2.available = ledger.available ∧
      (statusCall ledger (.str id) status).2.commitmentsByTxn =
        if ledger.takes .updateStatus then
          ledger.commitmentsByTxn.insert id (Dict.set ((ledger.commitmentsByTxn.lookup id).getD
            [(PyStr.ofString "txn_id", .str id)]) "status" (Json.text status.text))
        else ledger.commitmentsByTxn := by
  refine ⟨?_, ?_, (setStatus_spec ledger id (PyStr.ofString status.text)).2⟩
  · unfold statusCall CassandraLedger.setStatus CassandraLedger.takes
    cases ledger.available with
    | false => rfl
    | true =>
        cases ledger.environment.fails .updateStatus with
        | false => rfl
        | true => rfl
  · unfold statusCall CassandraLedger.setStatus
    cases available : ledger.available with
    | false => exact available
    | true =>
        cases ledger.environment.fails .updateStatus with
        | false => rfl
        | true => exact available

/-- The ledger is not asked to mark what has no text as its id. -/
theorem statusCall_of_other (ledger : CassandraLedger) {txnId : Json} (other : ∀ id, txnId ≠ .str id)
    (status : Status) : statusCall ledger txnId status = (false, ledger) := by
  cases txnId with
  | str id => exact (other id rfl).elim
  | _ => rfl

/-! ## The book -/

/-- The committed transactions, in the order in which their ids came up first. -/
abbrev Book := List (PyStr × CommitmentRecord)

/-- Give the entry of a transaction another status. -/
def Book.mark (book : Book) (id : PyStr) (status : Status) : Book :=
  ((Retention.lookup id book).map fun record =>
    Retention.upsert id { record with status } book).getD book

/-- Keep what a request was answered. -/
def Book.enter (book : Book) : Request -> Answer -> Book
  | .add _, .committed (.ok record) =>
      match record.txnId with
      | .str id => Retention.upsert id record book
      | _ => book
  | .mark transition (.str id), .marked true => book.mark id transition.status
  | _, _ => book

/-- A store, with the book that is kept of its answers. -/
structure Audited where
  store : CommitmentStore CassandraLedger
  book : Book

def follow (audited : Audited) (input : Environment × Request) : Answer × Audited :=
  let served := serveIn P audited.store input
  (served.1, ⟨served.2, audited.book.enter input.2 served.1⟩)

/-- The book does not interfere. -/
theorem run_follow (audited : Audited) (inputs : List (Environment × Request)) :
    (Machine.run (follow P) audited inputs).1 = (Machine.run (serveIn P) audited.store inputs).1 ∧
      (Machine.run (follow P) audited inputs).2.store =
        (Machine.run (serveIn P) audited.store inputs).2 := by
  induction inputs generalizing audited with
  | nil => exact ⟨rfl, rfl⟩
  | cons input rest inductionHypothesis =>
      rcases inductionHypothesis (follow P audited input).2 with ⟨answers, store⟩
      refine ⟨?_, store⟩
      rw [Machine.run_cons, Machine.run_cons, answers]
      rfl

theorem keys_mark (book : Book) (id : PyStr) (status : Status) :
    (book.mark id status).map Prod.fst = book.map Prod.fst := by
  unfold Book.mark
  cases found : Retention.lookup id book with
  | none => rfl
  | some record =>
      rcases Retention.upsert_of_found found { record with status } with ⟨before, after, split, written⟩
      rw [Option.map_some, Option.getD_some, written, split]
      simp only [List.map_append, List.map_cons]

theorem length_mark (book : Book) (id : PyStr) (status : Status) :
    (book.mark id status).length = book.length := by
  have lengths := congrArg List.length (keys_mark book id status)
  rw [List.length_map, List.length_map] at lengths
  exact lengths

/-- There is nothing to mark where the id is not in the book. -/
theorem mark_of_absent {book : Book} {id : PyStr} (absent : Retention.lookup id book = none)
    (status : Status) : book.mark id status = book := by
  unfold Book.mark
  rw [absent, Option.map_none, Option.getD_none]

/-- Which entries a transition leaves in the book. -/
theorem mem_mark_iff {book : Book} (distinct : (book.map Prod.fst).Nodup) {id own : PyStr}
    {status : Status} {found : CommitmentRecord} :
    (own, found) ∈ book.mark id status ↔
      own ≠ id ∧ (own, found) ∈ book ∨
        own = id ∧ ∃ record, (id, record) ∈ book ∧ found = { record with status } := by
  unfold Book.mark
  cases hit : Retention.lookup id book with
  | none =>
      have missing := Retention.lookup_eq_none_iff.mp hit
      rw [Option.map_none, Option.getD_none]
      constructor
      · intro member
        refine Or.inl ⟨?_, member⟩
        rintro rfl
        exact missing (List.mem_map.mpr ⟨_, member, rfl⟩)
      · rintro (⟨-, member⟩ | ⟨-, record, member, -⟩)
        · exact member
        · exact (missing (List.mem_map.mpr ⟨_, member, rfl⟩)).elim
  | some record =>
      rw [Option.map_some, Option.getD_some, Retention.mem_upsert_iff distinct]
      constructor
      · rintro (⟨same, rfl⟩ | other)
        · exact Or.inr ⟨same, record, Retention.mem_of_lookup hit, rfl⟩
        · exact Or.inl other
      · rintro (other | ⟨same, own, member, rfl⟩)
        · exact Or.inr other
        · have equal := hit.symm.trans (Retention.lookup_of_mem distinct member)
          cases equal
          exact Or.inl ⟨same, rfl⟩

/-! ## The ring as a copy -/

/-- An entry of the book as an entry of the ring. -/
def named (entry : PyStr × CommitmentRecord) : Json × CommitmentRecord := (.str entry.1, entry.2)

section Ring

variable (entries : Book) (id : PyStr)

theorem ringGet_named : ringGet (entries.map named) (.str id) = Retention.lookup id entries := by
  unfold ringGet Retention.lookup
  rw [List.find?_map, Option.map_map]
  rfl

/-- Only texts are keys of a ring. -/
theorem ringGet_named_of_other {key : Json} (other : ∀ id, key ≠ .str id) :
    ringGet (entries.map named) key = none := by
  unfold ringGet
  rw [Option.map_eq_none_iff, List.find?_eq_none]
  intro entry member
  rcases List.mem_map.mp member with ⟨own, -, rfl⟩
  cases key with
  | str text => exact (other text rfl).elim
  | _ => simp [named, Json.eqScalar, Json.asNumber]

theorem ringSet_named (record : CommitmentRecord) :
    ringSet (entries.map named) (.str id) record = (Retention.upsert id record entries).map named := by
  induction entries with
  | nil => rfl
  | cons entry rest inductionHypothesis =>
      rcases entry with ⟨own, old⟩
      rw [List.map_cons]
      by_cases hit : own = id
      · subst own
        simp [ringSet, named, Json.eqScalar, Retention.upsert]
      · have different : (Json.str own).eqScalar (.str id) = false := decide_eq_false hit
        simp only [ringSet, named, different, Bool.false_eq_true, if_false, Retention.upsert, if_neg hit,
          List.map_cons]
        exact congrArg _ inductionHypothesis

theorem ringEvict_named (size : Nat) :
    ringEvict size (entries.map named) = (entries.drop (entries.length - size)).map named := by
  unfold ringEvict
  rw [List.length_map, List.map_drop]

end Ring

/-- The ring holds entries of the book, at most one for each id. -/
def Within (hot : List (Json × CommitmentRecord)) (book : Book) : Prop :=
  ∃ entries : Book, hot = entries.map named ∧ (entries.map Prod.fst).Nodup ∧ ∀ entry ∈ entries, entry ∈ book

section Within

variable {hot : List (Json × CommitmentRecord)} {book : Book} (within : Within hot book)
  (distinct : (book.map Prod.fst).Nodup)
include within

/-- The ring is asked for texts only. -/
theorem Within.key {txnId : Json} {record : CommitmentRecord} (found : ringGet hot txnId = some record) :
    ∃ id, txnId = .str id ∧ (id, record) ∈ book := by
  rcases within with ⟨entries, rfl, -, inside⟩
  by_cases text : ∃ id, txnId = .str id
  · rcases text with ⟨id, rfl⟩
    rw [ringGet_named] at found
    exact ⟨id, rfl, inside _ (Retention.mem_of_lookup found)⟩
  · rw [ringGet_named_of_other entries (fun id same => text ⟨id, same⟩)] at found
    cases found

include distinct

/-- A record that is written into both stays in both, until the ring drops it. -/
theorem Within.write (size : Nat) (id : PyStr) (record : CommitmentRecord) :
    Within (ringEvict size (ringSet hot (.str id) record)) (Retention.upsert id record book) := by
  rcases within with ⟨entries, rfl, apart, inside⟩
  rw [ringSet_named, ringEvict_named]
  refine ⟨_, rfl, (Retention.nodup_upsert id record apart).sublist ((List.drop_sublist _ _).map Prod.fst), ?_⟩
  rintro ⟨own, found⟩ member
  rw [Retention.mem_upsert_iff distinct]
  rcases (Retention.mem_upsert_iff apart).mp (List.mem_of_mem_drop member) with written | ⟨other, old⟩
  · exact Or.inl written
  · exact Or.inr ⟨other, inside _ old⟩

/-- A record that is marked in both stays in both. -/
theorem Within.mark (id : PyStr) (status : Status) :
    Within (((ringGet hot (.str id)).map fun record =>
      ringSet hot (.str id) { record with status }).getD hot) (book.mark id status) := by
  rcases within with ⟨entries, rfl, apart, inside⟩
  rw [ringGet_named]
  have marked : (((Retention.lookup id entries).map fun record =>
      ringSet (entries.map named) (.str id) { record with status }).getD (entries.map named)) =
        (Book.mark entries id status).map named := by
    unfold Book.mark
    cases Retention.lookup id entries with
    | none => rfl
    | some record => rw [Option.map_some, Option.getD_some, ringSet_named, Option.map_some, Option.getD_some]
  refine ⟨Book.mark entries id status, marked, by rw [keys_mark]; exact apart, ?_⟩
  rintro ⟨own, found⟩ member
  rw [mem_mark_iff distinct]
  rcases (mem_mark_iff apart).mp member with ⟨other, old⟩ | ⟨same, record, old, rfl⟩
  · exact Or.inl ⟨other, inside _ old⟩
  · exact Or.inr ⟨same, record, inside _ old, rfl⟩

end Within

/-- No tier has an id that is no text. -/
theorem serveIn_mark_of_other (environment : Environment) {store : CommitmentStore CassandraLedger}
    {book : Book} (within : Within store.hot book) (transition : Transition) {txnId : Json}
    (other : ∀ id, txnId ≠ .str id) :
    serveIn P store (environment, .mark transition txnId) =
      (.marked false, inEnvironment environment store) := by
  have missing : ringGet store.hot txnId = none := by
    cases found : ringGet store.hot txnId with
    | none => rfl
    | some record =>
        rcases within.key found with ⟨id, same, -⟩
        exact (other id same).elim
  rw [serveIn_mark, missing]
  simp only [statusCall_of_other _ other, Option.isSome_none, Bool.false_or, Option.any_false,
    Option.map_none, Option.getD_none]
  rfl

theorem enter_refused (book : Book) (transition : Transition) (txnId : Json) :
    book.enter (.mark transition txnId) (.marked false) = book := by
  cases txnId with
  | _ => rfl

/-- A transition of what is no text is declined, and nothing is written. -/
theorem follow_mark_of_other (environment : Environment) {audited : Audited}
    (within : Within audited.store.hot audited.book) (transition : Transition) {txnId : Json}
    (other : ∀ id, txnId ≠ .str id) :
    follow P audited (environment, .mark transition txnId) =
      (.marked false, ⟨inEnvironment environment audited.store, audited.book⟩) := by
  unfold follow
  rw [serveIn_mark_of_other P environment within transition other]
  dsimp only
  rw [enter_refused]

/-! ## Runs -/

/-- The book has one entry for each id, and the ring is a copy of some of them. -/
structure Held (audited : Audited) : Prop where
  distinct : (audited.book.map Prod.fst).Nodup
  within : Within audited.store.hot audited.book

variable {P} in
/-- A request keeps the ring a copy, in any environment. -/
theorem held_follow {audited : Audited} (held : Held audited) (input : Environment × Request) :
    Held (follow P audited input).2 := by
  rcases held with ⟨distinct, within⟩
  rcases input with ⟨environment, request⟩
  unfold follow
  cases request with
  | add call =>
      rcases serveIn_add P environment audited.store call with
        ⟨error, served⟩ | ⟨error, chainHash, -, served⟩ | ⟨record, id, named, -, -, -, served⟩
      · rw [served]
        exact ⟨distinct, within⟩
      · rw [served]
        exact ⟨distinct, within⟩
      · rw [served]
        simp only [Book.enter, named]
        refine ⟨Retention.nodup_upsert id record distinct, ?_⟩
        show Within (ringEvict audited.store.ringSize (ringSet audited.store.hot record.txnId record)) _
        rw [named]
        exact within.write distinct _ id record
  | mark transition txnId =>
      rw [serveIn_mark]
      dsimp only
      cases found : ringGet audited.store.hot txnId with
      | some record =>
          rcases within.key found with ⟨id, rfl, -⟩
          have marked := within.mark distinct id transition.status
          rw [found] at marked
          rw [Option.isSome_some, Bool.true_or]
          exact ⟨by rw [Book.enter, keys_mark]; exact distinct, marked⟩
      | none =>
          rw [Option.map_none, Option.getD_none]
          -- the ring is as before, and the book may have marked an entry that the ring has forgotten
          cases txnId with
          | str id =>
              have marked := within.mark distinct id transition.status
              rw [found] at marked
              rw [Option.isSome_none, Bool.false_or]
              cases audited.store.ledger.any fun ledger =>
                  (statusCall (ledger.meets environment) (.str id) transition.status).1 with
              | false => exact ⟨distinct, within⟩
              | true => exact ⟨by rw [Book.enter, keys_mark]; exact distinct, marked⟩
          | _ => exact ⟨distinct, within⟩

/-! ### Ids in the book -/

theorem keys_enter {book : Book} {id : PyStr} (member : id ∈ book.map Prod.fst) (request : Request)
    (answer : Answer) : id ∈ (book.enter request answer).map Prod.fst := by
  unfold Book.enter
  split
  · split
    · exact Retention.mem_keys_upsert.mpr (Or.inr member)
    · exact member
  · rw [keys_mark]
    exact member
  · exact member

theorem keys_run {audited : Audited} {id : PyStr} (member : id ∈ audited.book.map Prod.fst)
    (inputs : List (Environment × Request)) :
    id ∈ ((Machine.run (follow P) audited inputs).2.book).map Prod.fst :=
  Machine.invariant_run (fun own : Audited => id ∈ own.book.map Prod.fst)
    (fun _ input _ inside => keys_enter inside input.2 _) member

/-- What was committed is in the book. -/
theorem entered_run (audited : Audited) (inputs : List (Environment × Request)) {record : CommitmentRecord}
    (answered : .committed (.ok record) ∈ (Machine.run (follow P) audited inputs).1) {id : PyStr}
    (named : record.txnId = .str id) :
    id ∈ ((Machine.run (follow P) audited inputs).2.book).map Prod.fst := by
  induction inputs generalizing audited with
  | nil => exact (List.not_mem_nil answered).elim
  | cons input rest inductionHypothesis =>
      rw [Machine.run_cons] at answered ⊢
      rcases List.mem_cons.mp answered with here | later
      · apply keys_run
        rcases input with ⟨environment, request⟩
        cases request with
        | add call =>
            have entered : (follow P audited (environment, .add call)).2.book =
                audited.book.enter (.add call) (.committed (.ok record)) := by
              rw [here]
              rfl
            rw [entered]
            simp only [Book.enter, named]
            exact Retention.mem_keys_upsert.mpr (Or.inl rfl)
        | mark transition txnId =>
            have marked : (follow P audited (environment, .mark transition txnId)).1 =
                (serveIn P audited.store (environment, .mark transition txnId)).1 := rfl
            rw [marked, serveIn_mark] at here
            cases here
      · exact inductionHypothesis _ later

end Cassandra
end ZeroAudit
