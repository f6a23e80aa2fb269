import Mathlib.Data.Finset.Card
import Mathlib.Tactic.Linarith
import Mathlib.Tactic.NormNum
import ZeroAudit.Foundation.Machine
import ZeroAudit.Foundation.Retention
import ZeroAudit.Foundation.SlidingQueue
import ZeroAudit.Intent.AnomalyDetector

namespace ZeroAudit
namespace Intent

open Foundation Foundation.Retention

/-!
# What the velocity tracker holds

Each account has a queue of its times in the order of arrival, which is pruned from
the front by the newest arrival's own window.  Nothing is ever dropped from the
tracker but that, since an account that was entered has its last time.  The tracker
therefore grows with the accounts, whatever its limit says.

A count reads the queue from one end of the window only.  It is the number of times
in the window exactly if the times of the window that it misses are as many as the
ones behind the window that it reads.
-/

/-- A call of `record`, and the clock it would read. -/
structure RecordCall where
  accountHash : PyStr
  timestampNs : Int
  nowNs : Int

namespace RecordCall

/-- The time that the call enters. -/
def time (call : RecordCall) : Except PyError ℚ :=
  seconds (if call.timestampNs = 0 then call.nowNs else call.timestampNs)

end RecordCall

/-- The times that the calls record for an account, in their order. -/
def arrivals (accountHash : PyStr) (calls : List RecordCall) : List ℚ :=
  calls.filterMap fun call => if call.accountHash = accountHash then call.time.toOption else none

/-- The accounts that the calls record, once for each call. -/
def accounts (calls : List RecordCall) : List PyStr :=
  calls.filterMap fun call => call.time.toOption.map fun _ => call.accountHash

theorem arrivals_append (accountHash : PyStr) (calls : List RecordCall) (call : RecordCall) :
    arrivals accountHash (calls ++ [call]) = arrivals accountHash calls ++
      if call.accountHash = accountHash then call.time.toOption.toList else [] := by
  unfold arrivals
  rw [List.filterMap_append, List.filterMap_cons]
  by_cases same : call.accountHash = accountHash
  · simp only [same, if_true]
    cases call.time.toOption <;> rfl
  · simp [same]

/-- An account is recorded where it has an arrival. -/
theorem mem_accounts_iff (accountHash : PyStr) (calls : List RecordCall) :
    accountHash ∈ accounts calls ↔ arrivals accountHash calls ≠ [] := by
  unfold accounts arrivals
  rw [List.mem_filterMap, Ne, List.filterMap_eq_nil_iff, not_forall]
  apply exists_congr
  intro call
  rw [not_forall, exists_prop]
  apply and_congr_right
  intro _
  cases call.time.toOption with
  | none => simp
  | some time => simp

namespace VelocityTracker

/-- The cutoff of a time. -/
def cutoff (window : Nat) (time : ℚ) : ℚ := time - window

theorem cutoff_le (window : Nat) (time : ℚ) : cutoff window time ≤ time := by
  have positive : (0 : ℚ) ≤ window := Nat.cast_nonneg window
  unfold cutoff
  linarith

theorem cutoff_monotone (window : Nat) : Monotone (cutoff window) := by
  intro early late ordered
  unfold cutoff
  linarith

/-- Dictionaries of queues are written as other bounded maps are. -/
theorem assign_eq_upsert (accountHash : PyStr) (times : List ℚ) (entries : List (PyStr × List ℚ)) :
    assign accountHash times entries = upsert accountHash times entries := by
  induction entries with
  | nil => rfl
  | cons entry rest inductionHypothesis =>
      rcases entry with ⟨own, old⟩
      rw [assign, upsert, inductionHypothesis]

theorem timesOf_eq_lookup (tracker : VelocityTracker) (accountHash : PyStr) :
    tracker.timesOf accountHash = (lookup accountHash tracker.times).getD [] := rfl

/-- One call of `record`.  One that raises leaves the tracker as it was. -/
def enter (tracker : VelocityTracker) (call : RecordCall) : Except PyError Unit × VelocityTracker :=
  match tracker.record call.accountHash call.timestampNs call.nowNs with
  | .error error => (.error error, tracker)
  | .ok after => (.ok (), after)

/-- The tracker after the calls. -/
def after (tracker : VelocityTracker) (calls : List RecordCall) : VelocityTracker :=
  (Machine.run enter tracker calls).2

theorem after_append (tracker : VelocityTracker) (calls : List RecordCall) (call : RecordCall) :
    tracker.after (calls ++ [call]) = ((tracker.after calls).enter call).2 := by
  unfold after
  rw [Machine.run_append, Machine.run_cons, Machine.run_nil]

/-- No account is held without a time. -/
def Filled (tracker : VelocityTracker) : Prop := ∀ entry ∈ tracker.times, entry.2 ≠ []

/-- There is no account to forget. -/
theorem forget_of_filled {entries : List (PyStr × List ℚ)} (filled : ∀ entry ∈ entries, entry.2 ≠ [])
    (count : Nat) :
    (entries.take count).filter (fun entry => !entry.2.isEmpty) ++ entries.drop count = entries := by
  have kept : (entries.take count).filter (fun entry => !entry.2.isEmpty) = entries.take count := by
    apply List.filter_eq_self.mpr
    intro entry member
    have nonempty := filled entry (List.mem_of_mem_take member)
    simpa using nonempty
  rw [kept, List.take_append_drop]

/-- The entry of a time drops nothing else than old times of its account. -/
theorem enter_of_time {tracker : VelocityTracker} (filled : tracker.Filled) {call : RecordCall} {time : ℚ}
    (converted : call.time = .ok time) :
    (tracker.enter call).2 = { tracker with
      times := upsert call.accountHash
        (SlidingQueue.push (cutoff tracker.window) (tracker.timesOf call.accountHash) time)
        tracker.times } := by
  have pushed := SlidingQueue.push_ne_nil (cutoff_le tracker.window) (tracker.timesOf call.accountHash) time
  have all : ∀ entry ∈ upsert call.accountHash
      (SlidingQueue.push (cutoff tracker.window) (tracker.timesOf call.accountHash) time) tracker.times,
      entry.2 ≠ [] := by
    intro entry member
    rcases mem_of_mem_upsert member with own | old
    · rw [own]
      exact pushed
    · exact filled entry old
  unfold enter record
  unfold RecordCall.time at converted
  rw [converted]
  simp only [bind, Except.bind, pure, Except.pure, assign_eq_upsert]
  unfold SlidingQueue.push cutoff at all
  rw [forget_of_filled all, ite_self]
  rfl

/-- A call whose time cannot be converted enters nothing. -/
theorem enter_of_error (tracker : VelocityTracker) {call : RecordCall} {error : PyError}
    (failed : call.time = .error error) : (tracker.enter call).2 = tracker := by
  unfold enter record
  unfold RecordCall.time at failed
  rw [failed]
  rfl

/-! ## After a run -/

/-- What the tracker holds after these calls: for each account they record, the queue of
its arrivals. -/
structure Holds (window maxAccounts : Nat) (calls : List RecordCall) (tracker : VelocityTracker) :
    Prop where
  sameWindow : tracker.window = window
  sameLimit : tracker.maxAccounts = maxAccounts
  distinct : (tracker.times.map Prod.fst).Nodup
  found : ∀ accountHash, lookup accountHash tracker.times =
    if arrivals accountHash calls = [] then none
    else some (SlidingQueue.queueOf (cutoff window) (arrivals accountHash calls))

namespace Holds

variable {window maxAccounts : Nat} {calls : List RecordCall} {tracker : VelocityTracker}

theorem timesOf (holds : tracker.Holds window maxAccounts calls) (accountHash : PyStr) :
    tracker.timesOf accountHash =
      SlidingQueue.queueOf (cutoff window) (arrivals accountHash calls) := by
  rw [timesOf_eq_lookup, holds.found]
  split
  · next none => rw [none]; rfl
  · rfl

theorem filled (holds : tracker.Holds window maxAccounts calls) : tracker.Filled := by
  rintro ⟨accountHash, times⟩ member
  have found := lookup_of_mem holds.distinct member
  rw [holds.found] at found
  split at found
  · cases found
  · next some =>
      cases found
      exact SlidingQueue.queueOf_ne_nil (cutoff_le window) some

/-- The accounts that are held are the ones that were recorded. -/
theorem mem_keys_iff (holds : tracker.Holds window maxAccounts calls) (accountHash : PyStr) :
    accountHash ∈ tracker.times.map Prod.fst ↔ accountHash ∈ accounts calls := by
  rw [mem_accounts_iff, ← not_iff_not, ← lookup_eq_none_iff, holds.found, not_not]
  split
  · next none => simp [none]
  · next some => simp [some]

theorem enter (holds : tracker.Holds window maxAccounts calls) (call : RecordCall) :
    (tracker.enter call).2.Holds window maxAccounts (calls ++ [call]) := by
  cases converted : call.time with
  | error error =>
      rw [enter_of_error tracker converted]
      refine ⟨holds.sameWindow, holds.sameLimit, holds.distinct, ?_⟩
      intro accountHash
      rw [arrivals_append, converted, holds.found]
      simp [Except.toOption]
  | ok time =>
      rw [enter_of_time holds.filled converted]
      refine ⟨holds.sameWindow, holds.sameLimit, nodup_upsert _ _ holds.distinct, ?_⟩
      intro accountHash
      rw [lookup_upsert, arrivals_append, converted]
      by_cases same : accountHash = call.accountHash
      · subst same
        simp only [if_true, Except.toOption, Option.toList_some, List.append_eq_nil_iff,
          List.cons_ne_nil, and_false, if_false]
        rw [holds.timesOf, holds.sameWindow, SlidingQueue.queueOf_append]
      · rw [if_neg same, if_neg (Ne.symm same), List.append_nil, holds.found]

end Holds

/-- Every run from an empty tracker ends in one that holds what it has recorded. -/
theorem holds_after (window maxAccounts : Nat) (calls : List RecordCall) :
    ((⟨window, maxAccounts, []⟩ : VelocityTracker).after calls).Holds window maxAccounts calls := by
  induction calls using List.reverseRecOn with
  | nil => exact ⟨rfl, rfl, List.nodup_nil, fun _ => rfl⟩
  | append_singleton calls call inductionHypothesis =>
      rw [after_append]
      exact inductionHypothesis.enter call

/-! ## Counting -/

/-- The time that a count is asked for. -/
def asOf (asOfNs : Int) : ℚ := asOfNs / 10 ^ 9

/-- The time above which a count reads the queue.  A time of zero is taken for none, and the clock
is read in its place. -/
def readFrom (window : Nat) (asOfNs : Int) (now : ℚ) : ℚ := cutoff window (if asOfNs = 0 then now else asOf asOfNs)

/-- The time is in the window that ends at the other. -/
def InWindow (window : Nat) (stop time : ℚ) : Prop := stop - window < time ∧ time ≤ stop

instance (window : Nat) (stop time : ℚ) : Decidable (InWindow window stop time) :=
  inferInstanceAs (Decidable (_ ∧ _))

/-- The number that a count should be: the arrivals in the window. -/
def recent (window : Nat) (arrivals : List ℚ) (stop : ℚ) : Nat :=
  arrivals.countP fun time => decide (InWindow window stop time)

/-- The arrivals in the window that the count misses: the ones that have been overtaken, and the
ones that lie too early to be read. -/
def missed (window : Nat) (arrivals : List ℚ) (stop start : ℚ) : Nat :=
  (SlidingQueue.overtaken (cutoff window) [] arrivals).countP (fun time => decide (InWindow window stop time)) +
    (SlidingQueue.survivors (cutoff window) [] arrivals).countP fun time =>
      decide (InWindow window stop time) && !decide (start < time)

/-- The arrivals outside the window that the count reads: they have not been overtaken. -/
def surplus (window : Nat) (arrivals : List ℚ) (stop start : ℚ) : Nat :=
  (SlidingQueue.survivors (cutoff window) [] arrivals).countP fun time =>
    decide (start < time) && !decide (InWindow window stop time)

theorem seconds_eq_ok_iff (nanoseconds : Int) (time : ℚ) :
    seconds nanoseconds = .ok time ↔
      nanoseconds.natAbs < 2 ^ 1024 - 2 ^ 970 ∧ time = nanoseconds / 10 ^ 9 := by
  unfold seconds PyFloat.ofInt
  by_cases small : nanoseconds.natAbs < 2 ^ 1024 - 2 ^ 970
  · rw [if_pos small]
    simp only [bind, Except.bind, pure, Except.pure, Except.ok.injEq, small, true_and, eq_comm]
  · rw [if_neg small]
    simp only [bind, Except.bind, reduceCtorEq, small, false_and]

/-- A count, where its time can be converted, reads the queue of the arrivals. -/
theorem count1h_after (window maxAccounts : Nat) (calls : List RecordCall) (accountHash : PyStr)
    (asOfNs : Int) (now : ℚ) (count : Nat) :
    ((⟨window, maxAccounts, []⟩ : VelocityTracker).after calls).count1h accountHash asOfNs now = .ok count ↔
      asOfNs.natAbs < 2 ^ 1024 - 2 ^ 970 ∧
        (SlidingQueue.queueOf (cutoff window) (arrivals accountHash calls)).countP
          (fun time => decide (readFrom window asOfNs now < time)) = count := by
  have holds := holds_after window maxAccounts calls
  unfold count1h readFrom
  rw [holds.timesOf, holds.sameWindow]
  by_cases clock : asOfNs = 0
  · have small : Int.natAbs 0 < 2 ^ 1024 - 2 ^ 970 := by decide +kernel
    simp only [clock, if_true, small, true_and, bind, Except.bind, pure, Except.pure, Except.ok.injEq, cutoff]
  · simp only [clock, if_false, bind, Except.bind, pure, Except.pure]
    by_cases small : asOfNs.natAbs < 2 ^ 1024 - 2 ^ 970
    · have converted : seconds asOfNs = .ok ((asOfNs : ℚ) / 10 ^ 9) :=
        (seconds_eq_ok_iff asOfNs _).mpr ⟨small, rfl⟩
      simp only [converted, Except.ok.injEq, small, true_and, cutoff, asOf]
      rfl
    · cases failed : seconds asOfNs with
      | error error => simp only [reduceCtorEq, small, false_and]
      | ok time => exact absurd ((seconds_eq_ok_iff asOfNs time).mp failed).1 small

/-- A count is the number of the arrivals in its window exactly if its time can be
converted, and it misses as many of them as it reads of the others. -/
theorem count1h_exact_iff (window maxAccounts : Nat) (calls : List RecordCall) (accountHash : PyStr)
    (asOfNs : Int) (now : ℚ) :
    ((⟨window, maxAccounts, []⟩ : VelocityTracker).after calls).count1h accountHash asOfNs now =
        .ok (recent window (arrivals accountHash calls) (asOf asOfNs)) ↔
      asOfNs.natAbs < 2 ^ 1024 - 2 ^ 970 ∧
        missed window (arrivals accountHash calls) (asOf asOfNs) (readFrom window asOfNs now) =
          surplus window (arrivals accountHash calls) (asOf asOfNs) (readFrom window asOfNs now) := by
  rw [count1h_after]
  apply and_congr_right
  intro _
  exact SlidingQueue.countP_queueOf_iff (cutoff_le window) (arrivals accountHash calls) _ _

/-- Two transactions, ten seconds apart, of which the later one arrives first. -/
def lateArrival : List RecordCall :=
  [⟨PyStr.ofString "acct", 110000000000, 0⟩, ⟨PyStr.ofString "acct", 100000000000, 0⟩]

theorem arrivals_lateArrival : arrivals (PyStr.ofString "acct") lateArrival = [110, 100] := by
  have first : seconds 110000000000 = .ok 110 :=
    (seconds_eq_ok_iff _ _).mpr ⟨by decide +kernel, by norm_num⟩
  have second : seconds 100000000000 = .ok 100 :=
    (seconds_eq_ok_iff _ _).mpr ⟨by decide +kernel, by norm_num⟩
  unfold arrivals lateArrival
  simp [RecordCall.time, first, second, Except.toOption]

/-- The count as of the earlier one is two, though only one of them lies in its window. -/
theorem late_arrival_counts_ahead :
    ((⟨3600, 50000, []⟩ : VelocityTracker).after lateArrival).count1h (PyStr.ofString "acct") 100000000000 0 =
        .ok 2 ∧
      recent 3600 (arrivals (PyStr.ofString "acct") lateArrival) (asOf 100000000000) = 1 := by
  have measured : asOf 100000000000 = 100 := by norm_num [asOf]
  have start : readFrom 3600 100000000000 0 = -3500 := by norm_num [readFrom, cutoff, asOf]
  rw [count1h_after, arrivals_lateArrival, measured, start]
  refine ⟨⟨by decide +kernel, ?_⟩, ?_⟩
  · decide +kernel
  · decide +kernel

/-- As of the newest arrival of the account or later, every count is right. -/
theorem count1h_of_latest (window maxAccounts : Nat) (calls : List RecordCall) (accountHash : PyStr)
    {asOfNs : Int} {now : ℚ} (given : asOfNs ≠ 0) (small : asOfNs.natAbs < 2 ^ 1024 - 2 ^ 970)
    (latest : ∀ time ∈ arrivals accountHash calls, time ≤ asOf asOfNs) :
    ((⟨window, maxAccounts, []⟩ : VelocityTracker).after calls).count1h accountHash asOfNs now =
      .ok (recent window (arrivals accountHash calls) (asOf asOfNs)) := by
  rw [count1h_after]
  refine ⟨small, ?_⟩
  unfold readFrom
  rw [if_neg given]
  exact SlidingQueue.countP_queueOf_of_latest (cutoff_le window) (cutoff_monotone window) latest

/-! ## The number of accounts -/

/-- The tracker holds as many accounts as the calls have recorded. -/
theorem length_after (window maxAccounts : Nat) (calls : List RecordCall) :
    ((⟨window, maxAccounts, []⟩ : VelocityTracker).after calls).times.length =
      (accounts calls).toFinset.card := by
  have holds := holds_after window maxAccounts calls
  rw [← List.length_map Prod.fst, ← List.toFinset_card_of_nodup holds.distinct]
  congr 1
  ext accountHash
  rw [List.mem_toFinset, List.mem_toFinset, holds.mem_keys_iff]

theorem accounts_subset {seen calls : List RecordCall} (before : seen <+: calls) :
    accounts seen ⊆ accounts calls := by
  rcases before with ⟨rest, rfl⟩
  unfold accounts
  rw [List.filterMap_append]
  exact List.subset_append_left _ _

/-- The tracker stays within its limit over a run exactly if the run records no more
distinct accounts than that. -/
theorem accounts_bounded_iff (window maxAccounts : Nat) (calls : List RecordCall) :
    (∀ seen, seen <+: calls ->
        ((⟨window, maxAccounts, []⟩ : VelocityTracker).after seen).times.length ≤ maxAccounts) ↔
      (accounts calls).toFinset.card ≤ maxAccounts := by
  constructor
  · intro always
    have last := always calls (List.prefix_refl calls)
    rw [length_after] at last
    exact last
  · intro few seen before
    rw [length_after]
    have sub : (accounts seen).toFinset ⊆ (accounts calls).toFinset :=
      fun accountHash member =>
        List.mem_toFinset.mpr (accounts_subset before (List.mem_toFinset.mp member))
    exact (Finset.card_le_card sub).trans few

/-- Two accounts in a tracker for one. -/
def twoAccounts : List RecordCall :=
  [⟨PyStr.ofString "a", 1000000000, 0⟩, ⟨PyStr.ofString "b", 2000000000, 0⟩]

theorem two_accounts_exceed :
    ((⟨0, 1, []⟩ : VelocityTracker).after twoAccounts).times.length = 2 := by
  have first : seconds 1000000000 = .ok 1 := (seconds_eq_ok_iff _ _).mpr ⟨by decide +kernel, by norm_num⟩
  have second : seconds 2000000000 = .ok 2 :=
    (seconds_eq_ok_iff _ _).mpr ⟨by decide +kernel, by norm_num⟩
  have recorded : accounts twoAccounts = [PyStr.ofString "a", PyStr.ofString "b"] := by
    unfold accounts twoAccounts
    simp [RecordCall.time, first, second, Except.toOption]
  rw [length_after, recorded]
  decide

end VelocityTracker

end Intent
end ZeroAudit
