import ZeroAudit.Chain.Ledger
import ZeroAudit.Verifier.Envelope

namespace ZeroAudit
namespace Verify

open Foundation Signature Commitment

/-!
# What an intact walk says about a ledger

Both services walk a list of records in the order of their sequence numbers,
and differ only in one reason text and in the answer to an empty list.  A walk
that reports no break has seen a linked chain in which every chain hash
recomputes.  Two such chains that end in one hash hash the same bytes link by
link, from the end backwards.  The bytes determine the predecessor, the binding
hash, and the text of the transaction id followed by the timestamp.  Nothing
marks the boundary between the last two, so the fields agree exactly if the ids
have equal lengths.
-/

variable (P : Platform)

/-! ## One round -/

/-- The predecessor a record names, and its own chain hash, as the walk reads them. -/
def walkPrev (record : Dict) : Json := Dict.get record "prev_chain_hash" (Json.text "")

def walkDigest (record : Dict) : Json := Dict.get record "chain_hash" (Json.text "")

/-- A round without a break: none was reported before, the record names the
previous hash, and its own hash recomputes. -/
theorem walkStep_inversion {reason : String} {walk next : Walk} {record : Dict}
    (stepped : walkStep P reason walk record = .ok next) :
    next.prevHash = walkDigest record ∧
      (next.breaks = [] -> walk.breaks = [] ∧
        (Dict.get record "prev_chain_hash" .null).eqScalar walk.prevHash = true ∧
        ∃ preimage, envelopeLink P record = .ok preimage ∧
          Dict.get record "chain_hash" .null = .str (P.sha3Hex preimage)) := by
  unfold walkStep computeChainHash at stepped
  simp only [bind_eq_ok_iff] at stepped
  rcases stepped with ⟨_, ⟨preimage, built, same⟩, gap, -, result⟩
  cases same
  cases result
  refine ⟨rfl, ?_⟩
  intro none
  simp only [List.append_eq_nil_iff] at none
  rcases none with ⟨⟨⟨before, named⟩, recomputes⟩, -⟩
  refine ⟨before, ?_, preimage, built, ?_⟩
  · by_contra wrong
    simp [wrong] at named
  · by_contra wrong
    rw [← Json.eqStr_eq_true_iff] at wrong
    simp [wrong] at recomputes

/-! ## A whole walk -/

/-- A record as the ledger publishes it: digests for the predecessor and the
binding hash, a text for the id, and a non-negative integer timestamp. -/
structure Row (record : Dict) (prev binding id : PyStr) (stamp : Int) : Prop where
  hasPrev : Dict.find record "prev_chain_hash" = some (.str prev)
  prevDigest : IsDigest prev
  hasBinding : Dict.find record "binding_hash" = some (.str binding)
  bindingDigest : IsDigest binding
  hasId : Dict.find record "txn_id" = some (.str id)
  hasStamp : Dict.find record "timestamp_ns" = some (.int stamp)
  nonnegative : 0 ≤ stamp

def IsRow (record : Dict) : Prop := ∃ prev binding id stamp, Row record prev binding id stamp

/-- The chain hash of the record recomputes from its fields. -/
def Recomputes (record : Dict) : Prop :=
  ∃ preimage, envelopeLink P record = .ok preimage ∧ walkDigest record = .str (P.sha3Hex preimage)

theorem eqScalar_str {text : PyStr} {value : Json} (equal : (Json.str text).eqScalar value = true) :
    value = .str text := by
  cases value with
  | str own => simpa [Json.eqScalar, eq_comm] using equal
  | null => simp [Json.eqScalar, Json.asNumber] at equal
  | bool own => simp [Json.eqScalar, Json.asNumber] at equal
  | int own => simp [Json.eqScalar, Json.asNumber] at equal
  | float own => simp [Json.eqScalar, Json.asNumber] at equal
  | arr items => simp [Json.eqScalar, Json.asNumber] at equal
  | obj fields => simp [Json.eqScalar, Json.asNumber] at equal

/-- What a walk without a break has seen. -/
theorem walk_inversion {reason : String} {records : List Dict} {walk final : Walk}
    (rows : ∀ record ∈ records, IsRow record)
    (ran : records.foldlM (walkStep P reason) walk = .ok final) (intact : final.breaks = []) :
    walk.breaks = [] ∧ LinkChain.Linked walkPrev walkDigest walk.prevHash records ∧
      (∀ record ∈ records, Recomputes P record) ∧
      final.prevHash = LinkChain.tip walkDigest walk.prevHash records := by
  induction records generalizing walk with
  | nil =>
      cases ran
      exact ⟨intact, trivial, fun _ member => (List.not_mem_nil member).elim, rfl⟩
  | cons record rest inductionHypothesis =>
      rw [List.foldlM_cons] at ran
      rcases bind_eq_ok_iff.mp ran with ⟨next, stepped, later⟩
      rcases inductionHypothesis (fun other member => rows other (List.mem_cons_of_mem _ member)) later
        with ⟨none, linked, recompute, tip⟩
      rcases walkStep_inversion P stepped with ⟨hash, clean⟩
      rcases clean none with ⟨before, named, preimage, built, advertised⟩
      rcases rows record List.mem_cons_self with ⟨prev, binding, id, stamp, row⟩
      rw [hash] at linked tip
      refine ⟨before, ⟨?_, linked⟩, ?_, tip⟩
      · rw [Dict.get_of_find row.hasPrev] at named
        rw [walkPrev, Dict.get_of_find row.hasPrev, eqScalar_str named]
      · rw [List.forall_mem_cons]
        refine ⟨⟨preimage, built, ?_⟩, recompute⟩
        cases found : Dict.find record "chain_hash" with
        | none => simp [Dict.get, found] at advertised
        | some value => simpa [walkDigest, Dict.get, found] using advertised

/-- What an intact report says about the records, in the order of the walk. -/
theorem intact_inversion {reason detail : String} {records sorted : List Dict} {report : ChainReport}
    (rows : ∀ record ∈ sorted, IsRow record) (order : sortBySeq P records = .ok sorted)
    (ran : walkChain P reason detail records = .ok report) (intact : report.intact = true) :
    (∀ record ∈ sorted, Recomputes P record) ∧
      ∃ before, LinkChain.Linked walkPrev walkDigest before sorted ∧
        (sorted ≠ [] -> report.head = some (LinkChain.tip walkDigest before sorted)) := by
  unfold walkChain at ran
  rcases bind_eq_ok_iff.mp ran with ⟨_, sameOrder, reported⟩
  rw [order] at sameOrder
  cases sameOrder
  cases sorted with
  | nil =>
      exact ⟨fun _ member => (List.not_mem_nil member).elim, .null, trivial, fun some => (some rfl).elim⟩
  | cons first rest =>
      simp only [List.head?_cons, List.getLast?_cons] at reported
      rcases bind_eq_ok_iff.mp reported with ⟨start, -, walked⟩
      rcases bind_eq_ok_iff.mp walked with ⟨final, rounds, same⟩
      cases same
      have none : final.breaks = [] := List.isEmpty_iff.mp intact
      rcases walk_inversion P rows rounds none with ⟨-, linked, recompute, tip⟩
      exact ⟨recompute, _, linked, fun _ => congrArg some tip⟩

theorem keyed_eq_ok_iff {record : Dict} {entry : PyFloat × Dict} :
    keyed record = .ok entry ↔ walkSeq record = some entry.1 ∧ entry.2 = record := by
  rcases entry with ⟨number, own⟩
  unfold keyed
  cases walkSeq record with
  | none => simp
  | some other => simp [eq_comm]

/-- A key is put on each record, and comes off again. -/
theorem map_snd_of_keyed {records : List Dict} {entries : List (PyFloat × Dict)}
    (all : records.mapM keyed = .ok entries) : entries.map Prod.snd = records := by
  rw [mapM_eq_ok_iff] at all
  induction all with
  | nil => rfl
  | cons own _ inductionHypothesis => rw [List.map_cons, inductionHypothesis, (keyed_eq_ok_iff.mp own).2]

theorem perm_of_sortBySeq {records sorted : List Dict} (order : sortBySeq P records = .ok sorted) :
    sorted.Perm records := by
  rcases bind_eq_ok_iff.mp order with ⟨entries, all, same⟩
  cases same
  exact ((P.sorted_perm entries).map Prod.snd).trans (List.Perm.of_eq (map_snd_of_keyed all))

/-- Numbers that are ordered are sorted as they are everywhere. -/
theorem sortBySeq_of_numbers {records : List Dict} {key : Dict -> PyFloat}
    (numbered : ∀ record ∈ records, walkSeq record = some (key record))
    (ordered : ∀ record ∈ records, key record ≠ .nan) :
    sortBySeq P records = .ok (records.mergeSort fun a b => !(key b).lt (key a)) := by
  have all : records.mapM keyed = .ok (records.map fun record => (key record, record)) := by
    rw [mapM_eq_ok_iff, List.forall₂_map_right_iff, List.forall₂_same]
    intro record member
    exact keyed_eq_ok_iff.mpr ⟨numbered record member, rfl⟩
  have sorted : P.sorted (records.map fun record => (key record, record)) =
      (records.mergeSort fun a b => !(key b).lt (key a)).map fun record => (key record, record) := by
    rw [P.sorted_numbers, List.map_mergeSort]
    · exact fun _ _ _ _ => rfl
    · intro entry member
      rcases List.mem_map.mp member with ⟨record, own, rfl⟩
      exact ordered record own
  unfold sortBySeq
  rw [all]
  simp only [bind, Except.bind, sorted, List.map_map, pure, Except.pure]
  exact congrArg Except.ok (List.map_id _)

/-! ## Two intact walks with one head -/

/-- The four hashed fields of two records are the same. -/
structure SameFields (record other : Dict) : Prop where
  prev : Dict.find record "prev_chain_hash" = Dict.find other "prev_chain_hash"
  binding : Dict.find record "binding_hash" = Dict.find other "binding_hash"
  id : Dict.find record "txn_id" = Dict.find other "txn_id"
  stamp : Dict.find record "timestamp_ns" = Dict.find other "timestamp_ns"

/-- The transaction ids of two records have equal lengths. -/
def SameIdLength (record other : Dict) : Prop :=
  ∀ id id', Dict.find record "txn_id" = some (.str id) ->
    Dict.find other "txn_id" = some (.str id') -> id.length = id'.length

theorem sameIdLength_of_sameFields {record other : Dict} (same : SameFields record other) :
    SameIdLength record other := by
  intro id id' named namedOther
  rw [same.id, namedOther] at named
  cases named
  rfl

/-- The link of a row, in its own fields. -/
theorem envelopeLink_row {record : Dict} {prev binding id : PyStr} {stamp : Int}
    (row : Row record prev binding id stamp) :
    envelopeLink P record = linkPreimage P (.str prev) (.str binding) (.str id) (.int stamp) := by
  rw [envelopeLink, Dict.get_of_find row.hasPrev, Dict.get_of_find row.hasBinding,
    Dict.get_of_find row.hasId, Dict.get_of_find row.hasStamp]

/-- Rows of one link preimage have the same fields, if their ids have equal
lengths. -/
theorem sameFields_of_preimage {record other : Dict} (row : IsRow record) (rowOther : IsRow other)
    {preimage : Bytes} (built : envelopeLink P record = .ok preimage)
    (builtOther : envelopeLink P other = .ok preimage) (lengths : SameIdLength record other) :
    SameFields record other ∧ walkPrev record = walkPrev other := by
  rcases row with ⟨prev, binding, id, stamp, row⟩
  rcases rowOther with ⟨prev', binding', id', stamp', rowOther⟩
  rw [envelopeLink_row P row] at built
  rw [envelopeLink_row P rowOther] at builtOther
  rcases linkPreimage_injective P row.prevDigest rowOther.prevDigest row.bindingDigest
    rowOther.bindingDigest built builtOther with ⟨rfl, rfl, tails⟩
  rcases List.append_inj tails (lengths id id' row.hasId rowOther.hasId) with ⟨rfl, stamps⟩
  have times : stamp = stamp' := PyStr.decimal_injective stamps
  subst times
  refine ⟨⟨row.hasPrev.trans rowOther.hasPrev.symm, row.hasBinding.trans rowOther.hasBinding.symm,
    row.hasId.trans rowOther.hasId.symm, row.hasStamp.trans rowOther.hasStamp.symm⟩, ?_⟩
  rw [walkPrev, walkPrev, Dict.get_of_find row.hasPrev, Dict.get_of_find rowOther.hasPrev]

/-- Two ledgers that both walks report intact and that end in one chain hash
agree in all four hashed fields, position by position, exactly if their
transaction ids have equal lengths, position by position. -/
theorem intact_walks_agree_iff {reason detail reason' detail' : String}
    {left right leftWalk rightWalk : List Dict} {leftReport rightReport : ChainReport}
    (leftRows : ∀ record ∈ left, IsRow record) (rightRows : ∀ record ∈ right, IsRow record)
    (collisionFree : ∀ record ∈ left, ∀ other ∈ right, ∀ first second,
      envelopeLink P record = .ok first -> envelopeLink P other = .ok second ->
      P.sha3 first = P.sha3 second -> first = second)
    (leftOrder : sortBySeq P left = .ok leftWalk) (rightOrder : sortBySeq P right = .ok rightWalk)
    (leftRan : walkChain P reason detail left = .ok leftReport)
    (rightRan : walkChain P reason' detail' right = .ok rightReport)
    (leftIntact : leftReport.intact = true) (rightIntact : rightReport.intact = true)
    (heads : leftReport.head = rightReport.head) :
    List.Forall₂ SameFields leftWalk rightWalk ↔ List.Forall₂ SameIdLength leftWalk rightWalk := by
  constructor
  · intro same
    exact same.imp fun _ _ => sameIdLength_of_sameFields
  · intro lengths
    have leftMember : ∀ record ∈ leftWalk, record ∈ left :=
      fun record => (perm_of_sortBySeq P leftOrder).mem_iff.mp
    have rightMember : ∀ record ∈ rightWalk, record ∈ right :=
      fun record => (perm_of_sortBySeq P rightOrder).mem_iff.mp
    rcases intact_inversion P (fun record member => leftRows record (leftMember record member))
      leftOrder leftRan leftIntact with ⟨leftRecompute, before, leftLinked, leftHead⟩
    rcases intact_inversion P (fun record member => rightRows record (rightMember record member))
      rightOrder rightRan rightIntact with ⟨rightRecompute, other, rightLinked, rightHead⟩
    cases lengths with
    | nil => exact List.Forall₂.nil
    | cons first rest =>
        have tips := (leftHead (List.cons_ne_nil _ _)).symm.trans
          (heads.trans (rightHead (List.cons_ne_nil _ _)))
        refine (LinkChain.agree_of_tip (List.Forall₂.cons first rest) leftLinked rightLinked
          (Option.some.inj tips) ?_).1
        intro a aMember b bMember sameLength digests
        rcases leftRecompute a aMember with ⟨preimage, built, hashed⟩
        rcases rightRecompute b bMember with ⟨preimage', built', hashed'⟩
        have bytes : P.sha3 preimage = P.sha3 preimage' :=
          hex_injective (Json.str.inj (hashed.symm.trans (digests.trans hashed')))
        have preimages := collisionFree a (leftMember a aMember) b (rightMember b bMember) _ _ built
          built' bytes
        rw [← preimages] at built'
        exact sameFields_of_preimage P (leftRows a (leftMember a aMember))
          (rightRows b (rightMember b bMember)) built built' sameLength

/-! ## Two ledgers with one head -/

theorem sequenceGap_int (seq : Int) (txnId : Json) :
    sequenceGap P (.int seq) (.int (seq + 1)) txnId = .ok [] := by
  simp [sequenceGap, Json.addInt, Json.eqScalar, Json.asNumber, bind, Except.bind, pure, Except.pure]

/-- A round over a record that names the previous hash, recomputes and follows
in sequence adds no break. -/
theorem walkStep_clean (reason : String) {record : Dict} {prev : PyStr} {seq : Int}
    (named : Dict.find record "prev_chain_hash" = some (.str prev))
    (numbered : Dict.find record "seq" = some (.int seq)) (recomputes : Recomputes P record)
    {breaks : List ChainBreak} :
    walkStep P reason ⟨breaks, .str prev, .int (seq + -1)⟩ record =
      .ok ⟨breaks, walkDigest record, .int seq⟩ := by
  rcases recomputes with ⟨preimage, built, advertised⟩
  have own : Dict.get record "chain_hash" .null = .str (P.sha3Hex preimage) := by
    cases found : Dict.find record "chain_hash" with
    | none =>
        rw [walkDigest, Dict.get, found] at advertised
        exact absurd (Json.str.inj advertised).symm (P.sha3Hex_ne_nil preimage)
    | some value => simpa [walkDigest, Dict.get, found] using advertised
  have chained : computeChainHash P (Dict.get record "prev_chain_hash" (Json.text ""))
      (Dict.get record "binding_hash" (Json.text "")) (Dict.get record "txn_id" (Json.text ""))
      (Dict.get record "timestamp_ns" (.int 0)) = .ok (P.sha3Hex preimage) := by
    unfold envelopeLink at built
    rw [computeChainHash, built]
    rfl
  have consecutive := sequenceGap_int P (seq + -1) (Dict.get record "txn_id" .null)
  rw [Int.neg_add_cancel_right] at consecutive
  unfold walkStep
  rw [chained, own, Dict.get_of_find numbered, Dict.get_of_find named]
  simp only [bind, Except.bind, consecutive]
  simp [Json.eqScalar, pure, Except.pure, walkDigest]

/-- One row whose chain hash recomputes is reported intact. -/
theorem walkChain_singleton (reason detail : String) {record : Dict} {prev binding id : PyStr}
    {stamp seq : Int} (row : Row record prev binding id stamp)
    (numbered : Dict.find record "seq" = some (.int seq)) (recomputes : Recomputes P record) :
    sortBySeq P [record] = .ok [record] ∧
      ∃ report, walkChain P reason detail [record] = .ok report ∧ report.intact = true ∧
        report.head = some (walkDigest record) := by
  have order : sortBySeq P [record] = .ok [record] := by
    have own : ∀ other ∈ [record], walkSeq other = some (.finite seq) := by
      intro other member
      rw [List.mem_singleton.mp member, walkSeq, Dict.get_of_find numbered]
      rfl
    refine (sortBySeq_of_numbers P own ?_).trans ?_
    · intro _ _ impossible
      cases impossible
    · rw [List.mergeSort_singleton]
  refine ⟨order, ?_⟩
  unfold walkChain
  rw [order]
  simp only [bind, Except.bind, List.head?_cons, List.getLast?_singleton,
    Dict.get_of_find numbered, Dict.get_of_find row.hasPrev, Json.addInt, List.foldlM_cons,
    walkStep_clean P reason row.hasPrev numbered recomputes, List.foldlM_nil]
  exact ⟨_, rfl, rfl, rfl⟩

/-- The bytes both rows below hash: the digits of the genesis value, a binding
hash, and the text `TXN-123`. -/
def boundaryBytes : Bytes :=
  List.replicate 64 0x30 ++ List.replicate 64 0x61 ++ [0x54, 0x58, 0x4e, 0x2d, 0x31, 0x32, 0x33]

/-- A first record of a ledger, with a chain hash over those bytes. -/
def boundaryRow (id : String) (stamp : Int) : Dict :=
  [(PyStr.ofString "txn_id", Json.text id),
    (PyStr.ofString "seq", .int 1),
    (PyStr.ofString "binding_hash", .str (List.replicate 64 (.scalar 'a'))),
    (PyStr.ofString "prev_chain_hash", .str GENESIS_HASH),
    (PyStr.ofString "chain_hash", .str (samplePlatform.sha3Hex boundaryBytes)),
    (PyStr.ofString "timestamp_ns", .int stamp)]

theorem row_boundaryRow (id : String) {stamp : Int} (nonnegative : 0 ≤ stamp) :
    Row (boundaryRow id stamp) GENESIS_HASH (List.replicate 64 (.scalar 'a')) (PyStr.ofString id)
      stamp where
  hasPrev := by simp [boundaryRow]
  prevDigest := isDigest_genesis
  hasBinding := by simp [boundaryRow]
  bindingDigest := ⟨List.length_replicate, fun c member => by
    rw [List.eq_of_mem_replicate member]
    decide⟩
  hasId := by simp [boundaryRow, Json.text]
  hasStamp := by simp [boundaryRow]
  nonnegative := nonnegative

/-- The id and the timestamp can be cut anywhere in that text. -/
theorem envelopeLink_boundaryRow {id : String} {stamp : Int} (nonnegative : 0 ≤ stamp)
    {first second : Bytes} (idBytes : PyStr.utf8 (PyStr.ofString id) = some first)
    (stampBytes : PyStr.utf8 (PyStr.decimal stamp) = some second)
    (joined : first ++ second = [0x54, 0x58, 0x4e, 0x2d, 0x31, 0x32, 0x33]) :
    envelopeLink samplePlatform (boundaryRow id stamp) = .ok boundaryBytes := by
  have genesis : PyStr.utf8 GENESIS_HASH = some (List.replicate 64 0x30) := by decide
  have binding : PyStr.utf8 (List.replicate 64 (.scalar 'a')) = some (List.replicate 64 0x61) := by
    decide
  rw [envelopeLink_row samplePlatform (row_boundaryRow id nonnegative), linkPreimage,
    Json.encode_str genesis, Json.encode_str binding, Json.encode_str idBytes,
    samplePlatform.str_int, Json.encode_str stampBytes, boundaryBytes, ← joined]
  simp [bind, Except.bind, pure, Except.pure]

theorem recomputes_boundaryRow {id : String} {stamp : Int}
    (built : envelopeLink samplePlatform (boundaryRow id stamp) = .ok boundaryBytes) :
    Recomputes samplePlatform (boundaryRow id stamp) :=
  ⟨boundaryBytes, built, by simp [walkDigest, boundaryRow, Dict.get]⟩

theorem envelopeLink_first :
    envelopeLink samplePlatform (boundaryRow "TXN-1" 23) = .ok boundaryBytes :=
  envelopeLink_boundaryRow (by decide)
    (by decide : PyStr.utf8 (PyStr.ofString "TXN-1") = some [0x54, 0x58, 0x4e, 0x2d, 0x31])
    (by decide : PyStr.utf8 (PyStr.decimal 23) = some [0x32, 0x33]) rfl

theorem envelopeLink_second :
    envelopeLink samplePlatform (boundaryRow "TXN-12" 3) = .ok boundaryBytes :=
  envelopeLink_boundaryRow (by decide)
    (by decide : PyStr.utf8 (PyStr.ofString "TXN-12") = some [0x54, 0x58, 0x4e, 0x2d, 0x31, 0x32])
    (by decide : PyStr.utf8 (PyStr.decimal 3) = some [0x33]) rfl

/-- The equivalence at the two ledgers of one row each. -/
theorem intact_walks_agree_iff_boundary :
    List.Forall₂ SameFields [boundaryRow "TXN-1" 23] [boundaryRow "TXN-12" 3] ↔
      List.Forall₂ SameIdLength [boundaryRow "TXN-1" 23] [boundaryRow "TXN-12" 3] := by
  have left := row_boundaryRow "TXN-1" (by decide : (0 : Int) ≤ 23)
  have right := row_boundaryRow "TXN-12" (by decide : (0 : Int) ≤ 3)
  rcases walkChain_singleton samplePlatform "CHAIN_HASH_RECOMPUTE_MISMATCH" "empty ledger" left
    (by simp [boundaryRow] : _ = some (Json.int 1)) (recomputes_boundaryRow envelopeLink_first) with
    ⟨leftOrder, leftReport, leftRan, leftIntact, leftHead⟩
  rcases walkChain_singleton samplePlatform "CHAIN_HASH_MISMATCH" "no records received yet" right
    (by simp [boundaryRow] : _ = some (Json.int 1)) (recomputes_boundaryRow envelopeLink_second) with
    ⟨rightOrder, rightReport, rightRan, rightIntact, rightHead⟩
  refine intact_walks_agree_iff samplePlatform ?_ ?_ ?_ leftOrder rightOrder leftRan rightRan
    leftIntact rightIntact ?_
  · intro record member
    rw [List.mem_singleton.mp member]
    exact ⟨_, _, _, _, left⟩
  · intro record member
    rw [List.mem_singleton.mp member]
    exact ⟨_, _, _, _, right⟩
  · intro record member other otherMember first second built builtOther _
    rw [List.mem_singleton.mp member, envelopeLink_first] at built
    rw [List.mem_singleton.mp otherMember, envelopeLink_second] at builtOther
    exact Except.ok.inj (built.symm.trans builtOther)
  · rw [leftHead, rightHead]
    simp [walkDigest, boundaryRow, Dict.get]

/-- A ledger with transaction `TXN-1` at time 23 and one with `TXN-12` at time 3
are both intact and end in one hash, although no two byte strings collide. -/
theorem boundary_shift_keeps_head :
    ∃ leftReport rightReport,
      verifyChain samplePlatform [boundaryRow "TXN-1" 23] = .ok leftReport ∧
      verifyChain samplePlatform [boundaryRow "TXN-12" 3] = .ok rightReport ∧
      IsRow (boundaryRow "TXN-1" 23) ∧ IsRow (boundaryRow "TXN-12" 3) ∧
      leftReport.intact = true ∧ rightReport.intact = true ∧ leftReport.head = rightReport.head ∧
      envelopeLink samplePlatform (boundaryRow "TXN-1" 23) =
        envelopeLink samplePlatform (boundaryRow "TXN-12" 3) ∧
      ¬List.Forall₂ SameFields [boundaryRow "TXN-1" 23] [boundaryRow "TXN-12" 3] := by
  have left := row_boundaryRow "TXN-1" (by decide : (0 : Int) ≤ 23)
  have right := row_boundaryRow "TXN-12" (by decide : (0 : Int) ≤ 3)
  rcases walkChain_singleton samplePlatform "CHAIN_HASH_RECOMPUTE_MISMATCH" "empty ledger" left
    (by simp [boundaryRow] : _ = some (Json.int 1)) (recomputes_boundaryRow envelopeLink_first) with
    ⟨-, leftReport, leftRan, leftIntact, leftHead⟩
  rcases walkChain_singleton samplePlatform "CHAIN_HASH_RECOMPUTE_MISMATCH" "empty ledger" right
    (by simp [boundaryRow] : _ = some (Json.int 1)) (recomputes_boundaryRow envelopeLink_second) with
    ⟨-, rightReport, rightRan, rightIntact, rightHead⟩
  refine ⟨leftReport, rightReport, leftRan, rightRan, ⟨_, _, _, _, left⟩, ⟨_, _, _, _, right⟩,
    leftIntact, rightIntact, ?_, envelopeLink_first.trans envelopeLink_second.symm, ?_⟩
  · rw [leftHead, rightHead]
    simp [walkDigest, boundaryRow, Dict.get]
  · intro same
    cases same with
    | cons same rest =>
        have times := same.stamp
        rw [left.hasStamp, right.hasStamp] at times
        cases times

end Verify
end ZeroAudit
