import ZeroAudit.Verifier.Verdicts

namespace ZeroAudit
namespace Api

open Foundation Verify Kafka

/-!
# The decisions of the analysts

A decision is kept under its transaction where the request for it is answered, and is written
on the records of the queue each time the queue is asked for.  The buffers lose records and the
reports are dropped by the thousand, but a decision stays until there is another one on the
same transaction.
-/

variable (P : Platform)

/-! ## A dictionary with texts for keys -/

/-- The value of a key, whatever the key is. -/
def valueOf {V : Type} (entries : List (Json × V)) (key : Json) : Option V :=
  (entries.find? fun entry => entry.1.eqScalar key).map Prod.snd

theorem eq_of_eqScalar {own : Json} {id : PyStr} (same : own.eqScalar (.str id) = true) : own = .str id := by
  cases own with
  | str text => simpa [Json.eqScalar] using same
  | _ => simp [Json.eqScalar, Json.asNumber] at same

theorem valueOf_assignEntry {V : Type} (id : PyStr) (value : V) (entries : List (Json × V)) (key : Json) :
    valueOf (assignEntry (.str id) value entries) key =
      if (Json.str id).eqScalar key = true then some value else valueOf entries key := by
  unfold valueOf
  induction entries with
  | nil =>
      rw [assignEntry, List.find?_cons]
      cases (Json.str id).eqScalar key <;> rfl
  | cons entry rest inductionHypothesis =>
      rcases entry with ⟨own, old⟩
      rw [assignEntry]
      by_cases hit : own.eqScalar (.str id) = true
      · rw [if_pos hit, eq_of_eqScalar hit, List.find?_cons, List.find?_cons]
        cases (Json.str id).eqScalar key <;> rfl
      · rw [if_neg hit, List.find?_cons, List.find?_cons]
        cases found : own.eqScalar key with
        | false => exact inductionHypothesis
        | true =>
            have other : ¬(Json.str id).eqScalar key = true := by
              intro same
              rw [eqScalar_str same] at found
              exact hit found
            rw [if_neg other]

/-! ## Decisions -/

namespace Dashboard

/-- The decision of a request that is answered. -/
def decision (board : Dashboard) : Action -> Option (PyStr × Resolution)
  | .resolve txnId req nowNs =>
      match (board.resolve txnId req nowNs).1 with
      | .ok _ => some (txnId, ⟨req.action, req.resolvedBy, req.note, nowNs⟩)
      | .error _ => none
  | _ => none

/-- The decisions of a run from here, in order. -/
def decisionsFrom : Dashboard -> List Action -> List (PyStr × Resolution)
  | _, [] => []
  | board, action :: rest => (board.decision action).toList ++ decisionsFrom (act P board action).2 rest

/-- The last decision of a run on what has this id. -/
def lastDecision (actions : List Action) (id : Json) : Option Resolution :=
  ((decisionsFrom P started actions).reverse.find? fun own => (Json.str own.1).eqScalar id).map Prod.snd

/-- Nothing but a decision changes what is kept of them. -/
theorem resolutions_act (board : Dashboard) (action : Action) :
    (act P board action).2.resolutions = match board.decision action with
      | some own => assignEntry (.str own.1) own.2 board.resolutions
      | none => board.resolutions := by
  cases action with
  | deliver delivery =>
      change (board.deliver P delivery).resolutions = board.resolutions
      unfold deliver
      cases board.consumer <;> rfl
  | fetchKeys proverKeys => rfl
  | transactions n =>
      change (board.transactions n).2.resolutions = board.resolutions
      unfold transactions
      cases board.consumer <;> rfl
  | anomalies n =>
      change (board.anomalies n).2.resolutions = board.resolutions
      unfold anomalies
      cases board.consumer <;> rfl
  | resolve txnId req nowNs =>
      change (board.resolve txnId req nowNs).2.resolutions = _
      unfold decision resolve
      by_cases unknown : req.action ≠ PyStr.ofString "AUTHORIZE" ∧ req.action ≠ PyStr.ofString "TERMINATE"
      · simp only [if_pos unknown]
      · simp only [if_neg unknown]
        cases board.find txnId <;> rfl

/-- What a run keeps under an id is its last decision, or what was there before. -/
theorem valueOf_run (board : Dashboard) (actions : List Action) (id : Json) :
    valueOf (Machine.run (act P) board actions).2.resolutions id =
      (((decisionsFrom P board actions).reverse.find? fun own => (Json.str own.1).eqScalar id).map Prod.snd).or
        (valueOf board.resolutions id) := by
  induction actions generalizing board with
  | nil => rfl
  | cons action rest inductionHypothesis =>
      rw [Machine.run_cons]
      refine (inductionHypothesis _).trans ?_
      rw [resolutions_act, decisionsFrom, List.reverse_append, List.find?_append]
      cases board.decision action with
      | none =>
          dsimp only [Option.toList, List.reverse_nil, List.find?_nil]
          rw [Option.or_none]
      | some own =>
          dsimp only [Option.toList]
          rw [valueOf_assignEntry, List.reverse_singleton, List.find?_cons, List.find?_nil]
          cases (Json.str own.1).eqScalar id with
          | false =>
              dsimp only
              rw [Option.or_none, if_neg Bool.false_ne_true]
          | true =>
              dsimp only
              rw [if_pos rfl]
              cases (decisionsFrom P (act P board action).2 rest).reverse.find? _ <;> rfl

/-- A decision is shown as it was made. -/
def shownDecision : Option Resolution -> Json
  | some own => .obj own.toDict
  | none => .null

theorem stampResolution_eq (board : Dashboard) (record : Dict) :
    board.stampResolution record = (hashable (Dict.get record "txn_id" .null)).bind fun _ =>
      .ok (Dict.set record "resolution"
        (shownDecision (valueOf board.resolutions (Dict.get record "txn_id" .null)))) := by
  unfold stampResolution lookup valueOf
  cases hashable (Dict.get record "txn_id" .null) with
  | error error => rfl
  | ok value =>
      dsimp only [bind, Except.bind, pure, Except.pure]
      cases (board.resolutions.find? _).map Prod.snd <;> rfl

/-- Updates are all made where none of them raises. -/
theorem visit_ok_iff (update : Dict -> Except PyError Dict) (records : List Dict) :
    (visit update records).1 = .ok () ↔ ∀ record ∈ records, ∃ updated, update record = .ok updated := by
  induction records with
  | nil => exact iff_of_true rfl (fun _ member => (List.not_mem_nil member).elim)
  | cons record rest inductionHypothesis =>
      rw [visit, List.forall_mem_cons]
      cases update record with
      | error error =>
          constructor
          · intro impossible
            cases impossible
          · rintro ⟨⟨_, impossible⟩, -⟩
            cases impossible
      | ok updated =>
          rw [inductionHypothesis]
          exact ⟨fun later => ⟨⟨updated, rfl⟩, later⟩, And.right⟩

/-- In every run, whatever is delivered and asked for: the queue is answered exactly if no id in it
is a container, and then each of its records carries the last decision that was answered on its
id, or none if there was none. -/
theorem decisions_shown (actions : List Action) (n : Int) :
    ((∃ records, ((after P actions).anomalies n).1 = .ok records) ↔
        ∀ record ∈ (after P actions).recentAnomalies n, (hashable (Dict.get record "txn_id" .null)).isOk = true) ∧
      ∀ records, ((after P actions).anomalies n).1 = .ok records ->
        List.Forall₂ (fun record shown => shown = Dict.set record "resolution"
            (shownDecision (lastDecision P actions (Dict.get record "txn_id" .null))))
          ((after P actions).recentAnomalies n) records := by
  rcases Option.isSome_iff_exists.mp (isSome_consumer_after P actions) with ⟨consumer, own⟩
  have queue : (after P actions).recentAnomalies n = consumer.anomalyBuffer.snapshot n := by
    rw [recentAnomalies, own]
    rfl
  have stamped : (∃ records, ((after P actions).anomalies n).1 = .ok records) ↔
      (visit (after P actions).stampResolution (consumer.anomalyBuffer.snapshot n)).1 = .ok () := by
    unfold anomalies
    rw [own]
    dsimp only [RingBuffer.revise]
    cases (visit (after P actions).stampResolution (consumer.anomalyBuffer.snapshot n)).1 with
    | error error => simp
    | ok value => simp
  have kept : ∀ id, valueOf (after P actions).resolutions id = lastDecision P actions id := by
    intro id
    exact (valueOf_run P started actions id).trans Option.or_none
  constructor
  · rw [stamped, visit_ok_iff, queue]
    apply forall₂_congr
    intro record _
    rw [stampResolution_eq]
    cases hashable (Dict.get record "txn_id" .null) with
    | error error => simp [Except.bind, Except.isOk, Except.toBool]
    | ok value => simp [Except.bind, Except.isOk, Except.toBool]
  · intro records answered
    have fine := stamped.mp ⟨records, answered⟩
    have returned : records = (visit (after P actions).stampResolution (consumer.anomalyBuffer.snapshot n)).2 := by
      rw [anomalies_ok answered, anomalies_snd own, ← RingBuffer.snapshot_revise]
      rfl
    rw [returned, queue]
    apply (forall₂_visit fine).imp
    intro record shown updates
    rw [stampResolution_eq, kept] at updates
    rcases bind_eq_ok_iff.mp updates with ⟨_, -, same⟩
    exact (Except.ok.inj same).symm

end Dashboard

end Api
end ZeroAudit
