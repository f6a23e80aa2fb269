import ZeroAudit.Chain.History
import ZeroAudit.Chain.Segment
import ZeroAudit.Foundation.Machine
import Mathlib.Data.List.ReduceOption

namespace ZeroAudit
namespace Verify

open Foundation Signature Commitment

/-!
# The ring as a window of the chain

Without a durable tier the store audits its own ring.  The ring is a map that
keeps the place of a key, so an `add` displaces a record in one of two ways:
by writing over the one of the same transaction, or by pushing out the front.
As long as the displaced record is the one that is due, the ring holds the
last records of the chain, in some order, and the audit finds no break.  One
record displaced out of turn leaves a hole.
-/

variable (P : Platform)

/-! ## The ring as a map -/

section Ring

variable {ring : List (Json × CommitmentRecord)} {key : Json}

/-- A key that is present keeps its place. -/
theorem ringSet_of_some {old : CommitmentRecord} (found : ringGet ring key = some old)
    (record : CommitmentRecord) :
    ∃ before own after, ring = before ++ (own, old) :: after ∧
      ringSet ring key record = before ++ (own, record) :: after := by
  induction ring with
  | nil => cases found
  | cons entry rest inductionHypothesis =>
      rcases entry with ⟨own, first⟩
      cases hit : own.eqScalar key with
      | true =>
          simp only [ringGet, List.find?_cons, hit, Option.map_some, Option.some.injEq] at found
          subst found
          refine ⟨[], own, rest, rfl, ?_⟩
          simp only [ringSet, hit, if_true, List.nil_append]
      | false =>
          have later : ringGet rest key = some old := by
            simpa only [ringGet, List.find?_cons, hit] using found
          rcases inductionHypothesis later with ⟨before, middle, after, split, same⟩
          refine ⟨(own, first) :: before, middle, after, by rw [split]; rfl, ?_⟩
          simp only [ringSet, hit, Bool.false_eq_true, if_false, same, List.cons_append]

/-- A new key goes to the end. -/
theorem ringSet_of_none (missing : ringGet ring key = none) (record : CommitmentRecord) :
    ringSet ring key record = ring ++ [(key, record)] := by
  induction ring with
  | nil => rfl
  | cons entry rest inductionHypothesis =>
      rcases entry with ⟨own, first⟩
      cases hit : own.eqScalar key with
      | true => simp [ringGet, hit] at missing
      | false =>
          have later : ringGet rest key = none := by
            simpa only [ringGet, List.find?_cons, hit] using missing
          simp only [ringSet, hit, Bool.false_eq_true, if_false, inductionHypothesis later,
            List.cons_append]

/-- A ring that fits is left alone. -/
theorem ringEvict_of_fits {size : Nat} (fits : ring.length ≤ size) : ringEvict size ring = ring := by
  unfold ringEvict
  rw [Nat.sub_eq_zero_of_le fits, List.drop_zero]

/-- The record that leaves a ring of this size when the key is written. -/
def displaced (size : Nat) (ring : List (Json × CommitmentRecord)) (key : Json) :
    Option CommitmentRecord :=
  match ringGet ring key with
  | some old => some old
  | none => if size ≤ ring.length then ring.head?.map Prod.snd else none

/-- Writing a record displaces nothing and lets the ring grow, or puts the new
record in the place of the displaced one. -/
theorem ringEvict_ringSet (key : Json) {size : Nat} (positive : 0 < size) (fits : ring.length ≤ size)
    (record : CommitmentRecord) :
    (displaced size ring key = none ∧ ring.length < size ∧
      ((ringEvict size (ringSet ring key record)).map Prod.snd).Perm (ring.map Prod.snd ++ [record])) ∨
    ∃ old rest, displaced size ring key = some old ∧ (ring.map Prod.snd).Perm (old :: rest) ∧
      ((ringEvict size (ringSet ring key record)).map Prod.snd).Perm (rest ++ [record]) := by
  unfold displaced ringEvict
  cases found : ringGet ring key with
  | some old =>
      rcases ringSet_of_some found record with ⟨before, own, after, split, same⟩
      have none : (before ++ (own, record) :: after).length - size = 0 := by
        rw [split, List.length_append, List.length_cons] at fits
        rw [List.length_append, List.length_cons]
        omega
      refine Or.inr ⟨old, (before ++ after).map Prod.snd, rfl, ?_, ?_⟩
      · rw [split, List.map_append, List.map_append]
        exact List.perm_middle
      · rw [same, none, List.drop_zero, List.map_append, List.map_append]
        exact List.perm_middle.trans (List.perm_append_singleton ..).symm
  | none =>
      rw [ringSet_of_none found record, List.length_append, List.length_singleton]
      by_cases full : size ≤ ring.length
      · have one : ring.length + 1 - size = 1 := by omega
        cases ring with
        | nil => simp only [List.length_nil] at full; omega
        | cons front rest =>
            refine Or.inr ⟨front.2, rest.map Prod.snd, if_pos full, List.Perm.refl _, ?_⟩
            rw [one, List.cons_append, List.drop_one, List.tail_cons, List.map_append]
            rfl
      · have room : ring.length + 1 - size = 0 := by omega
        refine Or.inl ⟨if_neg full, by omega, ?_⟩
        rw [room, List.drop_zero, List.map_append]
        rfl

end Ring

/-! ## The store as a machine -/

/-- What may happen to a store. -/
inductive Operation where
  | add (call : TypedCall)
  | setStatus (txnId : Json) (status : Status)

section Store

variable {L : Type} (calls : LedgerCalls L) (ledgerSetStatus : L -> Json -> Status -> Bool × L)

/-- An operation answers with the record it appended, if it appended one. -/
def operate (store : CommitmentStore L) :
    Operation -> Option CommitmentRecord × CommitmentStore L
  | .add call =>
      let added := CommitmentStore.add P store calls call.toAddCall
      (added.1.toOption, added.2)
  | .setStatus txnId status => (none, (store.setStatus ledgerSetStatus txnId status).2)

/-- The audit of the store raises no alarm: it finds `total` records, or as
many as the ring and the limit let it see, and ends on the head.  The report
of an empty ledger has no head. -/
def AuditPasses (store : CommitmentStore L) (total : Nat) : Prop :=
  ∀ limit, 1 ≤ limit -> ∃ report, verifyChain P (store.auditExport calls limit) = .ok report ∧
    report.intact = true ∧ report.checked = min limit (min store.ringSize total) ∧
    report.head = if total = 0 then none else some (.str store.head)

/-- An `add` that succeeds displaces no other record than the one that is
`ringSize` places back. -/
def InTurn (store : CommitmentStore L) : Operation -> Prop
  | .add call => (CommitmentStore.add P store calls call.toAddCall).1.toOption.isSome ->
      ∀ old, displaced store.ringSize store.hot call.txnId = some old ->
        old.seq + store.ringSize = store.seq + 1
  | .setStatus _ _ => True

/-- The ring holds the last records of the chain, in some order. -/
structure Window (store : CommitmentStore L) : Prop where
  positive : 0 < store.ringSize
  ledger : store.ledger = none
  counted : store.hot.length = min store.ringSize store.total
  numbered : store.seq = store.total
  held : ∃ head records, records.Perm (store.hot.map Prod.snd) ∧
    Segment P store.signingKey head (store.seq - records.length) records ∧
    LinkChain.tip CommitmentRecord.chainHash head records = store.head

variable {P} {store : CommitmentStore L}

/-- A stretch that ends on the head, and the record of a successful call after
it, end on the new head. -/
theorem held_append {call : AddCall} {record : CommitmentRecord} (appends : Appends P store call record)
    {head : PyStr} {start : Int} {records : List CommitmentRecord}
    (segment : Segment P store.signingKey head start records)
    (tip : LinkChain.tip CommitmentRecord.chainHash head records = store.head)
    (ends : start + records.length = store.seq)
    (perm : (records ++ [record]).Perm ((store.advanced record).hot.map Prod.snd)) :
    ∃ head records, records.Perm ((store.advanced record).hot.map Prod.snd) ∧
      Segment P (store.advanced record).signingKey head ((store.advanced record).seq - records.length)
        records ∧
      LinkChain.tip CommitmentRecord.chainHash head records = (store.advanced record).head := by
  refine ⟨head, records ++ [record], perm, ?_, ?_⟩
  · have same : (store.advanced record).seq - ((records ++ [record]).length : Int) = start := by
      show record.seq - ((records ++ [record]).length : Int) = start
      rw [List.length_append, List.length_singleton, appends.seq]
      push_cast
      omega
    rw [same, segment_append, tip, ends]
    exact ⟨segment, appends.honest, appends.prev, appends.seq, trivial⟩
  · rw [LinkChain.tip_append]
    rfl

/-- A window that the record of a successful call is written into. -/
theorem window_append {call : AddCall} {record : CommitmentRecord} (window : Window P store)
    (appends : Appends P store call record)
    (inTurn : ∀ old, displaced store.ringSize store.hot record.txnId = some old ->
      old.seq + store.ringSize = store.seq + 1) :
    Window P (store.advanced record) := by
  rcases window.held with ⟨head, records, perm, segment, tip⟩
  have length : records.length = store.hot.length := by
    rw [perm.length_eq, List.length_map]
  have counted := window.counted
  have positive := window.positive
  have fits : store.hot.length ≤ store.ringSize := by omega
  have numbered : (store.advanced record).seq = (store.advanced record).total := by
    show record.seq = ((store.total + 1 : Nat) : Int)
    rw [appends.seq, window.numbered]
    rfl
  have size : (store.advanced record).hot.length =
      (ringEvict store.ringSize (ringSet store.hot record.txnId record)).length := rfl
  have bound : (store.advanced record).total = store.total + 1 := rfl
  have ring : (store.advanced record).ringSize = store.ringSize := rfl
  rcases ringEvict_ringSet record.txnId positive fits record with
    ⟨-, room, held⟩ | ⟨old, rest, displacing, before, held⟩
  · -- the ring has room: the window grows at its end
    have grown := held.length_eq
    rw [List.length_map, List.length_append, List.length_map, List.length_singleton] at grown
    refine ⟨positive, window.ledger, by rw [size, ring, bound]; omega, numbered, ?_⟩
    exact held_append appends segment tip (by omega) ((perm.append_right [record]).trans held.symm)
  · -- the record in turn is the first one of the window: the window moves on
    have due := inTurn old displacing
    have member : old ∈ records := perm.mem_iff.mpr (before.mem_iff.mpr List.mem_cons_self)
    rcases seqs_of_segment segment with ⟨ordered, bounds⟩
    have low := (bounds old member).1
    have full : records.length = store.ringSize := by omega
    cases records with
    | nil => cases member
    | cons first later =>
        rcases segment with ⟨-, -, firstSeq, tail⟩
        have front : first = old := by
          apply eq_of_key_eq CommitmentRecord.seq ordered List.mem_cons_self member
          rw [firstSeq, full]
          omega
        subst front
        have moved : later.Perm rest := (perm.trans before).cons_inv
        have kept := held.length_eq
        rw [List.length_map, List.length_append, List.length_singleton] at kept
        have sizes := moved.length_eq
        rw [List.length_cons] at full length
        refine ⟨positive, window.ledger, by rw [size, ring, bound]; omega, numbered, ?_⟩
        exact held_append appends tail tip (by omega) ((moved.append_right [record]).trans held.symm)

/-- Without a ledger, a change of status is made in the ring or nowhere. -/
theorem setStatus_of_none (none : store.ledger = .none) (txnId : Json) (status : Status) :
    (store.setStatus ledgerSetStatus txnId status).2 = store ∨
    ∃ old counts, ringGet store.hot txnId = some old ∧
      (store.setStatus ledgerSetStatus txnId status).2 =
        { store with hot := ringSet store.hot txnId { old with status }, counts } := by
  unfold CommitmentStore.setStatus
  cases found : ringGet store.hot txnId with
  | none =>
      simp only [none]
      exact Or.inl trivial
  | some old =>
      simp only [none]
      exact Or.inr ⟨old, _, rfl, rfl⟩

/-- A change of status changes no link. -/
theorem window_setStatus (window : Window P store) (txnId : Json) (status : Status) :
    Window P (store.setStatus ledgerSetStatus txnId status).2 := by
  rcases setStatus_of_none ledgerSetStatus window.ledger txnId status with
    same | ⟨old, counts, found, marked⟩
  · rw [same]
    exact window
  · rw [marked]
    rcases ringSet_of_some found { old with status } with ⟨before, own, after, split, same⟩
    rcases window.held with ⟨head, records, perm, segment, tip⟩
    have member : old ∈ records := by
      rw [perm.mem_iff, split]
      simp
    rcases List.append_of_mem member with ⟨first, second, parts⟩
    subst parts
    rw [split, List.map_append, List.map_cons] at perm
    have others : (first ++ second).Perm (before.map Prod.snd ++ after.map Prod.snd) :=
      (List.perm_middle.symm.trans (perm.trans List.perm_middle)).cons_inv
    have honest := honest_of_segment segment member
    refine ⟨window.positive, window.ledger, ?_, window.numbered, head,
      first ++ { old with status } :: second, ?_, ?_, ?_⟩
    · show (ringSet store.hot txnId { old with status }).length = min store.ringSize store.total
      rw [same, ← window.counted, split, List.length_append, List.length_append, List.length_cons,
        List.length_cons]
    · show List.Perm _ ((ringSet store.hot txnId { old with status }).map Prod.snd)
      rw [same, List.map_append, List.map_cons]
      exact List.perm_middle.trans ((others.cons _).trans List.perm_middle.symm)
    · have sizes : (first ++ { old with status } :: second).length = (first ++ old :: second).length := by
        rw [List.length_append, List.length_append, List.length_cons, List.length_cons]
      rw [sizes]
      exact segment_replace segment ⟨honest.txnId, honest.commitment, honest.link, honest.signature,
        honest.lweParams, honest.piiBytes⟩ rfl rfl rfl
    · rw [LinkChain.tip_append] at tip ⊢
      exact tip

/-- Without a ledger, an `add` raises and changes nothing, or leaves the store
advanced past the record it returns. -/
theorem operate_add (none : store.ledger = none) (call : TypedCall) :
    (operate P calls ledgerSetStatus store (.add call) = (.none, store) ∧
      InTurn P calls store (.add call)) ∨
    ∃ record, Appends P store call.toAddCall record ∧
      operate P calls ledgerSetStatus store (.add call) = (some record, store.advanced record) ∧
      (InTurn P calls store (.add call) ↔
        ∀ old, displaced store.ringSize store.hot record.txnId = some old ->
          old.seq + store.ringSize = store.seq + 1) := by
  rcases add_spec P store calls call with ⟨error, added⟩ | ⟨record, appends, added⟩
  · refine Or.inl ⟨?_, ?_⟩
    · simp only [operate, added, Except.toOption]
    · simp [InTurn, added, Except.toOption]
  · have kept : (store.advanced record).persist calls record = store.advanced record := by
      unfold CommitmentStore.persist CommitmentStore.advanced
      simp only [none, Option.map_none]
    refine Or.inr ⟨record, appends, ?_, ?_⟩
    · simp only [operate, added, kept, Except.toOption]
    · simp [InTurn, added, Except.toOption, appends.txnId]

/-- One operation in turn keeps the window. -/
theorem window_operate (window : Window P store) (operation : Operation)
    (inTurn : InTurn P calls store operation) :
    Window P (operate P calls ledgerSetStatus store operation).2 := by
  cases operation with
  | add call =>
      rcases operate_add calls ledgerSetStatus window.ledger call with
        ⟨same, -⟩ | ⟨record, appends, same, turn⟩
      · rw [same]
        exact window
      · rw [same]
        exact window_append window appends (turn.mp inTurn)
  | setStatus txnId status => exact window_setStatus ledgerSetStatus window txnId status

/-- The export of a store without a ledger. -/
theorem auditExport_of_none (none : store.ledger = none) (limit : Nat) :
    store.auditExport calls limit =
      (((store.hot.map Prod.snd).mergeSort fun a b => decide (b.seq ≤ a.seq)).take limit).map
        CommitmentRecord.toExportDict := by
  unfold CommitmentStore.auditExport
  rw [none]
  rfl

/-- The audit of a window passes. -/
theorem auditPasses_of_window (window : Window P store) : AuditPasses P calls store store.total := by
  intro limit positive
  rcases window.held with ⟨head, records, perm, segment, tip⟩
  have length : records.length = min store.ringSize store.total := by
    rw [perm.length_eq, List.length_map, window.counted]
  have newest : (store.hot.map Prod.snd).mergeSort (fun a b => decide (b.seq ≤ a.seq)) =
      records.reverse := by
    apply mergeSort_of_key (fun record => -record.seq)
      (perm.symm.trans (List.reverse_perm records).symm)
    · rw [List.pairwise_reverse]
      apply (seqs_of_segment segment).1.imp
      intro a b less
      omega
    · intro a _ b _
      simp only [neg_le_neg_iff]
  have exported : (store.auditExport calls limit).Perm
      ((records.drop (records.length - limit)).map CommitmentRecord.toExportDict) := by
    rw [auditExport_of_none calls window.ledger, newest, List.take_reverse]
    exact (List.reverse_perm _).map CommitmentRecord.toExportDict
  rw [← List.take_append_drop (records.length - limit) records, segment_append] at segment
  rcases walkChain_segment P carries_export "CHAIN_HASH_RECOMPUTE_MISMATCH" "empty ledger" segment.2
    exported with ⟨report, walked, intact, checked, ends⟩
  refine ⟨report, walked, intact, ?_, ?_⟩
  · rw [checked, List.length_drop, length]
    omega
  · rw [ends, ← LinkChain.tip_append, List.take_append_drop, tip]
    have seen : (records.drop (records.length - limit)).isEmpty = true ↔ store.total = 0 := by
      have ring := window.positive
      rw [List.isEmpty_iff_length_eq_zero, List.length_drop, length]
      omega
    simp only [seen]

/-- An audit that passes has seen the whole ring, and no two numbers in it are
further apart than its length. -/
theorem span_of_auditPasses (none : store.ledger = none) {total : Nat}
    (passes : AuditPasses P calls store total) :
    store.hot.length = min (store.hot.length + 1) (min store.ringSize total) ∧
      ∀ a ∈ store.hot.map Prod.snd, ∀ b ∈ store.hot.map Prod.snd, b.seq < a.seq + store.hot.length := by
  rcases passes (store.hot.length + 1) (Nat.le_add_left ..) with ⟨report, walked, intact, checked, -⟩
  have sorted := List.mergeSort_perm (store.hot.map Prod.snd) fun a b => decide (b.seq ≤ a.seq)
  have length := sorted.length_eq
  rw [List.length_map] at length
  unfold verifyChain at walked
  rw [auditExport_of_none calls none, List.take_of_length_le (by omega)] at walked
  rcases span_of_intact P carries_export walked intact with ⟨all, span⟩
  rw [all, length] at checked
  rw [length] at span
  exact ⟨checked, fun a left b right => span a (sorted.mem_iff.mpr left) b (sorted.mem_iff.mpr right)⟩

/-- An audit that passes after an operation shows that it was in turn. -/
theorem inTurn_of_auditPasses (window : Window P store) (operation : Operation)
    (passes : AuditPasses P calls (operate P calls ledgerSetStatus store operation).2
      (operate P calls ledgerSetStatus store operation).2.total) :
    InTurn P calls store operation := by
  cases operation with
  | setStatus txnId status => trivial
  | add call =>
      rcases operate_add calls ledgerSetStatus window.ledger call with
        ⟨-, turn⟩ | ⟨record, appends, same, turn⟩
      · exact turn
      · rw [turn]
        intro old displacing
        rw [same] at passes
        have counted := window.counted
        have positive := window.positive
        rcases window.held with ⟨head, records, perm, segment, -⟩
        have fits : store.hot.length ≤ store.ringSize := by omega
        rcases ringEvict_ringSet record.txnId positive fits record with
          ⟨none, -⟩ | ⟨other, rest, taken, before, held⟩
        · rw [none] at displacing
          cases displacing
        · rw [taken] at displacing
          cases displacing
          have sizes := before.length_eq
          have length := perm.length_eq
          have whole := held.length_eq
          simp only [List.length_map, List.length_cons, List.length_append, List.length_nil]
            at sizes length whole
          have bare : (store.advanced record).ledger = none := window.ledger
          rcases span_of_auditPasses calls bare passes with ⟨checked, span⟩
          have grown : (store.advanced record).total = store.total + 1 := rfl
          have ring : (store.advanced record).ringSize = store.ringSize := rfl
          have hot : (store.advanced record).hot =
              ringEvict store.ringSize (ringSet store.hot record.txnId record) := rfl
          rw [hot, whole, grown, ring] at checked
          rw [hot, whole] at span
          have full : records.length = store.ringSize := by omega
          cases records with
          | nil => rw [List.length_nil] at full; omega
          | cons first later =>
              have firstSeq := segment.2.2.1
              rcases List.mem_cons.mp (before.mem_iff.mp (perm.mem_iff.mp List.mem_cons_self)) with
                same | left
              · rw [← same, firstSeq, full]
                omega
              · -- the first record of the window stays, too far from the new one
                have near := span first (held.mem_iff.mpr (List.mem_append_left _ left)) record
                  (held.mem_iff.mpr (List.mem_append_right _ List.mem_cons_self))
                have next := appends.seq
                omega

/-! ## Whole runs -/

/-- An operation counts the record it appends. -/
theorem total_operate (none : store.ledger = none) (operation : Operation) :
    (operate P calls ledgerSetStatus store operation).2.ledger = .none ∧
      (operate P calls ledgerSetStatus store operation).2.total =
        store.total + (operate P calls ledgerSetStatus store operation).1.toList.length := by
  cases operation with
  | add call =>
      rcases operate_add calls ledgerSetStatus none call with ⟨same, -⟩ | ⟨record, -, same, -⟩
      · rw [same]
        exact ⟨none, rfl⟩
      · rw [same]
        exact ⟨none, rfl⟩
  | setStatus txnId status =>
      have kept : (store.setStatus ledgerSetStatus txnId status).2.ledger = .none ∧
          (store.setStatus ledgerSetStatus txnId status).2.total = store.total := by
        rcases setStatus_of_none ledgerSetStatus none txnId status with same | ⟨old, counts, -, marked⟩
        · rw [same]
          exact ⟨none, rfl⟩
        · rw [marked]
          exact ⟨none, rfl⟩
      exact kept

/-- The total of a store is the number of records a run has appended. -/
theorem total_run (none : store.ledger = none) (operations : List Operation) :
    (Machine.run (operate P calls ledgerSetStatus) store operations).2.total =
      store.total +
        (Machine.run (operate P calls ledgerSetStatus) store operations).1.reduceOption.length := by
  induction operations generalizing store with
  | nil => rfl
  | cons operation rest inductionHypothesis =>
      rcases total_operate calls ledgerSetStatus none operation with ⟨bare, counted⟩
      rw [Machine.run_cons]
      dsimp only
      rw [inductionHypothesis bare, counted]
      cases (operate P calls ledgerSetStatus store operation).1 with
      | none => rfl
      | some record =>
          rw [List.reduceOption_cons_of_some, List.length_cons, Option.toList_some,
            List.length_singleton]
          omega

theorem window_new {ringSize : Nat} (positive : 0 < ringSize) (keypair : Lwe.LWEKeyPair)
    (masterKey : Bytes) (signingKey : SigningKey) :
    Window P (CommitmentStore.new calls none ringSize keypair masterKey signingKey) :=
  ⟨positive, rfl, by simp [CommitmentStore.new], rfl, GENESIS_HASH, [], List.Perm.refl _, trivial, rfl⟩

variable (P)

/-- The audit of a store without a ledger passes after every operation of a
run exactly if no `add` of it displaces a record out of turn. -/
theorem audit_passes_iff {ringSize : Nat} (positive : 0 < ringSize) (keypair : Lwe.LWEKeyPair)
    (masterKey : Bytes) (signingKey : SigningKey) (operations : List Operation) :
    (∀ seen, seen <+: operations ->
      AuditPasses P calls
        (Machine.run (operate P calls ledgerSetStatus)
          (.new calls none ringSize keypair masterKey signingKey) seen).2
        (Machine.run (operate P calls ledgerSetStatus)
          (.new calls none ringSize keypair masterKey signingKey) seen).1.reduceOption.length) ↔
    Machine.Along (operate P calls ledgerSetStatus) (InTurn P calls)
      (.new calls none ringSize keypair masterKey signingKey) operations := by
  have start := window_new (P := P) calls positive keypair masterKey signingKey
  have keeps : ∀ store operation, Window P store -> InTurn P calls store operation ->
      Window P (operate P calls ledgerSetStatus store operation).2 :=
    fun store operation window inTurn => window_operate calls ledgerSetStatus window operation inTurn
  have total : ∀ seen, (Machine.run (operate P calls ledgerSetStatus)
      (.new calls none ringSize keypair masterKey signingKey) seen).2.total =
        (Machine.run (operate P calls ledgerSetStatus)
          (.new calls none ringSize keypair masterKey signingKey) seen).1.reduceOption.length := by
    intro seen
    rw [total_run calls ledgerSetStatus start.ledger]
    exact Nat.zero_add _
  constructor
  · intro passes
    apply Machine.along_of_observed (Window P) (fun store => AuditPasses P calls store store.total) keeps
    · intro store operation window observed
      exact inTurn_of_auditPasses calls ledgerSetStatus window operation observed
    · exact start
    · intro seen before
      rw [total seen]
      exact passes seen before
  · intro along seen before
    have window := Machine.invariant_of_along (Window P) keeps start along seen before
    rw [← total seen]
    exact auditPasses_of_window calls window

end Store

/-! ## One transaction twice -/

section Sample

variable {P} {L : Type} (calls : LedgerCalls L) (ledgerSetStatus : L -> Json -> Status -> Bool × L)
  {store : CommitmentStore L}

/-- A well-formed call succeeds. -/
theorem operate_wellFormed (none : store.ledger = none) {call : TypedCall} {id : PyStr}
    (wellFormed : WellFormed call.toAddCall id) {seed : Bytes} (seedLength : seed.length = Lwe.SEED_LEN)
    (keypair : store.keypair = Lwe.LWEKeyPair.generate P seed) (head : IsDigest store.head) :
    ∃ record, Appends P store call.toAddCall record ∧
      operate P calls ledgerSetStatus store (.add call) = (some record, store.advanced record) := by
  rcases add_wellFormed P store calls wellFormed seedLength keypair head with ⟨record, appends, added⟩
  refine ⟨record, appends, ?_⟩
  rcases operate_add calls ledgerSetStatus none call with ⟨same, -⟩ | ⟨own, -, same, -⟩
  · have silent : (CommitmentStore.add P store calls call.toAddCall).1.toOption = .none :=
      congrArg Prod.fst same
    rw [added] at silent
    cases silent
  · have answer : (CommitmentStore.add P store calls call.toAddCall).1.toOption = some own :=
      congrArg Prod.fst same
    rw [added] at answer
    cases answer
    exact same

/-- The ring after a first transaction. -/
theorem hot_of_first (store : CommitmentStore L) {first : CommitmentRecord} (empty : store.hot = [])
    (room : 1 ≤ store.ringSize) : (store.advanced first).hot = [(first.txnId, first)] := by
  unfold CommitmentStore.advanced
  dsimp only
  rw [empty]
  exact ringEvict_of_fits room

/-- The ring after two transactions, of which the second was added twice. -/
theorem hot_of_repeat (store : CommitmentStore L) {first second third : CommitmentRecord} (empty : store.hot = [])
    (room : 2 ≤ store.ringSize) (other : first.txnId.eqScalar second.txnId = false)
    (other' : first.txnId.eqScalar third.txnId = false)
    (own : second.txnId.eqScalar third.txnId = true) :
    (((store.advanced first).advanced second).advanced third).hot =
      [(first.txnId, first), (second.txnId, third)] := by
  have one : (store.advanced first).hot = [(first.txnId, first)] :=
    hot_of_first store empty (Nat.le_of_succ_le room)
  have two : ((store.advanced first).advanced second).hot =
      [(first.txnId, first), (second.txnId, second)] := by
    rw [CommitmentStore.advanced]
    dsimp only
    rw [one, ringSet, other]
    exact ringEvict_of_fits room
  rw [CommitmentStore.advanced]
  dsimp only
  rw [two, ringSet, other', if_neg Bool.false_ne_true, ringSet, own]
  exact ringEvict_of_fits room

end Sample

def operateSample : CommitmentStore Unit -> Operation -> Option CommitmentRecord × CommitmentStore Unit :=
  operate samplePlatform sampleCalls fun ledger _ _ => (false, ledger)

/-- On the sample platform an `add` appends its record. -/
theorem operateSample_add (store : CommitmentStore Unit) (none : store.ledger = none)
    (keypair : store.keypair = Lwe.LWEKeyPair.generate samplePlatform Sample.latticeSeed)
    (head : IsDigest store.head) (id : String) (encodable : ∃ bytes, PyStr.utf8 (PyStr.ofString id) = some bytes) :
    ∃ record, Appends samplePlatform store (callFor id).toAddCall record ∧
      operateSample store (.add (callFor id)) = (some record, store.advanced record) :=
  operate_wellFormed sampleCalls _ none (wellFormed_callFor encodable) rfl keypair head

theorem isDigest_sampleStore : IsDigest sampleStore.head := head_sampleStore ▸ isDigest_genesis

theorem audit_passes_iff_sample :
    AuditPasses samplePlatform sampleCalls
      (Machine.run operateSample sampleStore [.add (callFor "TXN-A"), .add (callFor "TXN-B")]).2
      (Machine.run operateSample sampleStore
        [.add (callFor "TXN-A"), .add (callFor "TXN-B")]).1.reduceOption.length := by
  rcases operateSample_add sampleStore rfl rfl isDigest_sampleStore "TXN-A" ⟨_, rfl⟩ with
    ⟨first, appends, ran⟩
  refine (audit_passes_iff samplePlatform sampleCalls (fun ledger _ _ => (false, ledger))
    (by decide : 0 < HOT_RING_SIZE) (Lwe.LWEKeyPair.generate samplePlatform Sample.latticeSeed) []
    sampleKey [.add (callFor "TXN-A"), .add (callFor "TXN-B")]).mpr ⟨?_, ?_, trivial⟩ _ (List.prefix_refl _)
  · intro _ old displacing
    cases displacing
  · -- the ring holds the first record, which has another id, and has room
    have moved : operate samplePlatform sampleCalls (fun ledger _ _ => (false, ledger))
        (.new sampleCalls none HOT_RING_SIZE (Lwe.LWEKeyPair.generate samplePlatform Sample.latticeSeed) [] sampleKey)
        (.add (callFor "TXN-A")) = (some first, sampleStore.advanced first) := ran
    have ring : (sampleStore.advanced first).hot = [(first.txnId, first)] :=
      hot_of_first sampleStore rfl (by decide : 1 ≤ HOT_RING_SIZE)
    intro _ old displacing
    rw [moved, show (callFor "TXN-B").txnId = Json.text "TXN-B" from rfl] at displacing
    have other : first.txnId.eqScalar (Json.text "TXN-B") = false := by
      rw [appends.txnId]
      rfl
    dsimp only at displacing
    rw [ring, displaced, ringGet, List.find?_cons, other] at displacing
    cases displacing

/-- A redelivered transaction leaves a hole: the audit of the store's own
chain is not intact. -/
theorem redelivery_breaks_audit :
    ¬ ∃ report, verifyChain samplePlatform
        ((Machine.run operateSample sampleStore
          [.add (callFor "TXN-A"), .add (callFor "TXN-B"), .add (callFor "TXN-B")]).2.auditExport
            sampleCalls 10) = .ok report ∧ report.intact = true := by
  rcases operateSample_add sampleStore rfl rfl isDigest_sampleStore "TXN-A" ⟨_, rfl⟩ with
    ⟨first, appends, ran⟩
  rcases operateSample_add (sampleStore.advanced first) rfl rfl appends.honest.chainHash_isDigest
    "TXN-B" ⟨_, rfl⟩ with ⟨second, appends', ran'⟩
  rcases operateSample_add ((sampleStore.advanced first).advanced second) rfl rfl
    appends'.honest.chainHash_isDigest "TXN-B" ⟨_, rfl⟩ with ⟨third, appends'', ran''⟩
  have other : first.txnId.eqScalar second.txnId = false := by
    rw [appends.txnId, appends'.txnId]
    rfl
  have own : first.txnId.eqScalar third.txnId = false ∧ second.txnId.eqScalar third.txnId = true := by
    rw [appends.txnId, appends'.txnId, appends''.txnId]
    exact ⟨rfl, rfl⟩
  have hot := hot_of_repeat sampleStore rfl (by decide : 2 ≤ HOT_RING_SIZE) other own.1 own.2
  rintro ⟨report, walked, intact⟩
  simp only [Machine.run_cons, Machine.run_nil, ran, ran', ran''] at walked
  have none : (((sampleStore.advanced first).advanced second).advanced third).ledger = none := rfl
  unfold verifyChain at walked
  rw [auditExport_of_none sampleCalls none, hot] at walked
  have perm := List.mergeSort_perm [first, third] fun a b => decide (b.seq ≤ a.seq)
  rw [List.take_of_length_le (by rw [List.length_mergeSort]; exact (by decide : 2 ≤ 10))] at walked
  rcases span_of_intact samplePlatform carries_export walked intact with ⟨-, span⟩
  have near := span first (perm.mem_iff.mpr (by simp)) third (perm.mem_iff.mpr (by simp))
  have numbers : first.seq = 1 ∧ third.seq = 3 := by
    have one : first.seq = 0 + 1 := appends.seq
    have two : second.seq = first.seq + 1 := appends'.seq
    have three : third.seq = second.seq + 1 := appends''.seq
    omega
  rw [numbers.1, numbers.2] at near
  simp at near

end Verify
end ZeroAudit
