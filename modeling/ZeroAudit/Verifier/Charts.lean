import Mathlib.Algebra.BigOperators.Ring.List
import Mathlib.Logic.Relation
import Mathlib.Tactic.FieldSimp
import ZeroAudit.Intent.AnomalyDetector

namespace ZeroAudit
namespace Charts

open Foundation Intent

/-!
# Charts of the dashboard (`verifier/components/charts.py`)

The Benford chart computes its statistic from percentages, so that it is the one of
Pearson times a hundred over the number of records, and compares it with the critical
value for counts.  The proximity graph draws at most four entities between a transaction
and the blacklist, and takes the last of them by the number of hops.
-/

/-! ## Benford's law -/

/-- `BENFORD_EXPECTED`, in percent. -/
def BENFORD_EXPECTED : Nat -> ℚ
  | 1 => 301 / 10
  | 2 => 176 / 10
  | 3 => 125 / 10
  | 4 => 97 / 10
  | 5 => 79 / 10
  | 6 => 67 / 10
  | 7 => 58 / 10
  | 8 => 51 / 10
  | 9 => 46 / 10
  | _ => 0

/-- The frequencies that the chart expects. -/
def expectedFrequency (digit : Nat) : ℚ := BENFORD_EXPECTED digit / 100

structure BenfordChart where
  labels : List String
  expected : List ℚ
  observed : List ℚ
  chi2Statistic : ℚ
  deviationFlag : Bool
  sampleCount : Nat

/-- `round(x, digits)`. -/
def roundTo (places : Nat) (x : ℚ) : ℚ := Binary64.roundHalfEven (x * 10 ^ places) / 10 ^ places

/-- The share of a digit in percent. -/
def percentage (counts : DigitCounts) (digit : Nat) : ℚ :=
  counts.of digit / (max counts.total 1 : Nat) * 100

/-- The chart, with the rounding of the observed percentages left open. -/
def benfordChartWith (rounded : ℚ -> ℚ) (counts : DigitCounts) : BenfordChart :=
  let labels := digits.map fun digit => toString digit
  let expected := digits.map BENFORD_EXPECTED
  if counts.entries = [] then
    { labels, expected, observed := List.replicate 9 0, chi2Statistic := 0, deviationFlag := false,
      sampleCount := 0 }
  else
    let observed := digits.map fun digit => rounded (percentage counts digit)
    let chi2 := (((observed.zip expected).filter fun pair => decide (0 < pair.2)).map fun pair =>
      (pair.1 - pair.2) ^ 2 / pair.2).sum
    { labels, expected, observed
      chi2Statistic := roundTo 3 chi2
      deviationFlag := decide (155 / 10 < chi2)
      sampleCount := counts.total }

/-- `benford_chart`. -/
def benfordChart (counts : DigitCounts) : BenfordChart := benfordChartWith (roundTo 2) counts

theorem expected_pos {digit : Nat} (member : digit ∈ digits) : 0 < BENFORD_EXPECTED digit := by
  rcases List.mem_range'_1.mp member with ⟨low, high⟩
  interval_cases digit <;> norm_num [BENFORD_EXPECTED]

/-- A share in percent, against the expected one, is a term of Pearson's statistic times a
hundred over the number of records. -/
theorem percent_term {n expected : ℚ} (some' : n ≠ 0) (positive : expected ≠ 0) (count : ℚ) :
    (count / n * 100 - expected) ^ 2 / expected =
      100 / n * ((count - expected / 100 * n) ^ 2 / (expected / 100 * n)) := by
  field_simp

/-- Without rounding, the chart sums the terms of Pearson's statistic in another unit. -/
theorem statistic_eq {counts : DigitCounts} (some' : 0 < counts.total) :
    ((((digits.map fun digit => id (percentage counts digit)).zip (digits.map BENFORD_EXPECTED)).filter
      fun pair => decide (0 < pair.2)).map fun pair => (pair.1 - pair.2) ^ 2 / pair.2).sum =
        100 / counts.total * pearson expectedFrequency counts := by
  have nonzero : (counts.total : ℚ) ≠ 0 := by exact_mod_cast some'.ne'
  have positive : ∀ digit ∈ digits, decide (0 < BENFORD_EXPECTED digit) = true := by
    intro digit member
    exact decide_eq_true (expected_pos member)
  rw [List.zip_map', List.filter_map, List.map_map]
  have all : (digits.filter ((fun pair : ℚ × ℚ => decide (0 < pair.2)) ∘
      fun digit => (id (percentage counts digit), BENFORD_EXPECTED digit))) = digits :=
    List.filter_eq_self.mpr positive
  rw [all]
  unfold pearson
  rw [← List.sum_map_mul_left]
  apply congrArg List.sum
  apply List.map_congr_left
  intro digit member
  have term := percent_term nonzero (expected_pos member).ne' (counts.of digit)
  simp only [Function.comp_apply, id_eq, percentage, max_eq_left (Nat.succ_le_of_lt some'),
    expectedFrequency]
  exact term

/-- The chart compares the scaled statistic of Pearson. -/
theorem deviationFlag_iff {counts : DigitCounts} (some' : 0 < counts.total) :
    (benfordChartWith id counts).deviationFlag = true ↔
      155 / 10 < 100 / counts.total * pearson expectedFrequency counts := by
  have filled : counts.entries ≠ [] := by
    intro empty
    unfold DigitCounts.total at some'
    rw [empty] at some'
    exact Nat.lt_irrefl 0 some'
  unfold benfordChartWith
  rw [if_neg filled]
  dsimp only
  rw [statistic_eq some', decide_eq_true_iff]

/-- The monitor compares the statistic itself. -/
theorem suspicious_iff {counts : DigitCounts} (enough : 100 ≤ counts.total) :
    (chiSquaredOf expectedFrequency counts).suspicious = true ↔
      15507 / 1000 < pearson expectedFrequency counts := by
  unfold chiSquaredOf
  rw [if_neg (Nat.not_lt.mpr enough)]
  exact decide_eq_true_iff

/-- The chart without rounding decides as the test it names and as the monitor decides. -/
def ChiSquaredDecision (counts : DigitCounts) : Prop :=
  ((benfordChartWith id counts).deviationFlag = true ↔ 155 / 10 < pearson expectedFrequency counts) ∧
    (benfordChartWith id counts).deviationFlag = (chiSquaredOf expectedFrequency counts).suspicious

/-- From a hundred records on, the chart is right about a table exactly if the statistic is
not above the critical value, or is above it in percent as well and above the monitor's. -/
theorem deviationFlag_decides_iff {counts : DigitCounts} (enough : 100 ≤ counts.total) :
    ChiSquaredDecision counts ↔
      pearson expectedFrequency counts ≤ 155 / 10 ∨
        15507 / 1000 < pearson expectedFrequency counts ∧
          155 / 10 * counts.total / 100 < pearson expectedFrequency counts := by
  have some' : 0 < counts.total := by omega
  have many : (100 : ℚ) ≤ counts.total := by exact_mod_cast enough
  have scaled : 155 / 10 < 100 / counts.total * pearson expectedFrequency counts ↔
      155 / 10 * counts.total / 100 < pearson expectedFrequency counts := by
    rw [div_mul_eq_mul_div, lt_div_iff₀ (by linarith), div_lt_iff₀ (by norm_num), mul_comm (100 : ℚ)]
  have above : 155 / 10 ≤ 155 / 10 * (counts.total : ℚ) / 100 := by linarith
  have agree : (benfordChartWith id counts).deviationFlag =
      (chiSquaredOf expectedFrequency counts).suspicious ↔
        ((benfordChartWith id counts).deviationFlag = true ↔
          (chiSquaredOf expectedFrequency counts).suspicious = true) := Bool.eq_iff_iff
  unfold ChiSquaredDecision
  rw [agree, deviationFlag_iff some', suspicious_iff enough, scaled]
  generalize pearson expectedFrequency counts = statistic at *
  constructor
  · rintro ⟨flagged, same⟩
    by_cases low : statistic ≤ 155 / 10
    · exact Or.inl low
    · have high := flagged.mpr (not_le.mp low)
      exact Or.inr ⟨same.mp high, high⟩
  · intro cases'
    rcases cases' with low | ⟨high, percent⟩
    · have unflagged : ¬ 155 / 10 * (counts.total : ℚ) / 100 < statistic := by
        intro less
        linarith
      refine ⟨iff_of_false unflagged (not_lt.mpr low), iff_of_false unflagged ?_⟩
      apply not_lt.mpr
      linarith
    · exact ⟨iff_of_true percent (by linarith), iff_of_true percent high⟩

/-- The table of a thousand records that follows the law. -/
def lawful : DigitCounts :=
  [⟨1, 301⟩, ⟨2, 176⟩, ⟨3, 125⟩, ⟨4, 97⟩, ⟨5, 79⟩, ⟨6, 67⟩, ⟨7, 58⟩, ⟨8, 51⟩, ⟨9, 46⟩].toAList

theorem deviationFlag_decides_lawful : ChiSquaredDecision lawful := by
  have enough : 100 ≤ lawful.total := by decide
  apply (deviationFlag_decides_iff enough).mpr
  apply Or.inl
  decide +kernel

/-- Ten thousand records, of which three percent were moved from the digit one to the digit nine. -/
def moved : DigitCounts :=
  [⟨1, 2710⟩, ⟨2, 1760⟩, ⟨3, 1250⟩, ⟨4, 970⟩, ⟨5, 790⟩, ⟨6, 670⟩, ⟨7, 580⟩, ⟨8, 510⟩, ⟨9, 760⟩].toAList

/-- The statistic of Pearson is above the critical value and the monitor says so, while the
chart says that there is no deviation. -/
theorem moved_unflagged :
    100 ≤ moved.total ∧ ¬ ChiSquaredDecision moved ∧ 155 / 10 < pearson expectedFrequency moved ∧
      (chiSquaredOf expectedFrequency moved).suspicious = true ∧
        (benfordChart moved).deviationFlag = false := by
  have high : 155 / 10 < pearson expectedFrequency moved := by decide +kernel
  have unflagged : (benfordChartWith id moved).deviationFlag = false := by decide +kernel
  refine ⟨by decide, ?_, high, by decide +kernel, by decide +kernel⟩
  intro decided
  rw [decided.1.mpr high] at unflagged
  exact Bool.noConfusion unflagged

/-! ## The proximity graph -/

inductive NodeType where
  | transaction
  | intermediate
  | blacklisted
  deriving DecidableEq

structure Node where
  id : PyStr
  label : PyStr
  type : NodeType
  color : String
  x : Int
  y : Int
  deriving DecidableEq

/-- An edge, whose ends are `from` and `to`. -/
structure Edge where
  source : PyStr
  target : PyStr
  label : PyStr
  color : Option String
  deriving DecidableEq

structure ProximityGraph where
  nodes : List Node
  edges : List Edge
  hops : Int
  flagReason : PyStr
  txnId : PyStr

def SOURCE : PyStr := PyStr.ofString "source"

def BLACKLIST : PyStr := PyStr.ofString "blacklist"

/-- `f"hop_{i}"`. -/
def hopId (i : Int) : PyStr := PyStr.ofString "hop_" ++ PyStr.decimal i

def positions : List (Int × Int) := [(150, -50), (150, 50), (300, 0), (300, -80), (300, 80)]

section Proximity

variable (upper : PyStr -> PyStr)

/-- Four characters of the hash of the account, where it has so many. -/
def labelSlice (accountHash : PyStr) (i : Nat) : PyStr :=
  if (i + 1) * 4 ≤ accountHash.length then upper ((accountHash.take ((i + 1) * 4)).drop (i * 4))
  else PyStr.ofString "????"

def sourceNode (txnId : PyStr) : Node :=
  { id := SOURCE
    label := PyStr.ofString "TXN\n" ++ txnId.drop (txnId.length - 8)
    type := .transaction
    color := "#ff6b35"
    x := 0
    y := 0 }

def hopNode (accountHash : PyStr) (i : Nat) : Node :=
  let position := positions.getD i (0, 0)
  { id := hopId i
    label := PyStr.ofString "ENTITY\n" ++ labelSlice upper accountHash i
    type := .intermediate
    color := "#ffd700"
    x := position.1
    y := position.2 }

def blacklistNode (hops : Int) (flagReason : PyStr) : Node :=
  { id := BLACKLIST
    label := PyStr.ofString "⚠ " ++ flagReason
    type := .blacklisted
    color := "#ff0033"
    x := 150 * hops
    y := 0 }

def hopEdge (i : Nat) : Edge :=
  { source := if i = 0 then SOURCE else hopId (i - 1)
    target := hopId i
    label := PyStr.ofString "TRANSFERS_TO"
    color := none }

def lastEdge (hops : Int) : Edge :=
  { source := if 1 < hops then hopId (hops - 2) else SOURCE
    target := BLACKLIST
    label := PyStr.decimal hops ++ PyStr.ofString " HOP" ++ PyStr.ofString (if 1 < hops then "S" else "")
    color := some "#ff0033" }

/-- The number of entities that are drawn. -/
def drawn (hops : Int) : Nat := (min (hops - 1) 4).toNat

/-- `graph_proximity`. -/
def graphProximity (txnId accountHash : PyStr) (hops : Int) (flagReason : PyStr) : ProximityGraph :=
  { nodes := sourceNode txnId :: (List.range (drawn hops)).map (hopNode upper accountHash) ++
      [blacklistNode hops flagReason]
    edges := (List.range (drawn hops)).map hopEdge ++ [lastEdge hops]
    hops
    flagReason
    txnId }

end Proximity

/-- The number of hops that `anomaly_detail` asks for. -/
def detailHops (flagReason : PyStr) : Int :=
  if flagReason = PyStr.ofString "OFAC_SANCTION_LIST" then 1
  else if flagReason = PyStr.ofString "RBI_FLAG_2024" then 2
  else if flagReason = PyStr.ofString "FATF_GREY_LIST" then 3
  else 8

namespace ProximityGraph

/-- The ids of the nodes. -/
def ids (graph : ProximityGraph) : List PyStr := graph.nodes.map Node.id

/-- There is an edge from one id to the other. -/
def Joined (graph : ProximityGraph) (first second : PyStr) : Prop :=
  ∃ edge ∈ graph.edges, edge.source = first ∧ edge.target = second

structure WellFormed (graph : ProximityGraph) : Prop where
  endpoints : ∀ edge ∈ graph.edges, edge.source ∈ graph.ids ∧ edge.target ∈ graph.ids
  distinct : graph.ids.Nodup
  path : Relation.ReflTransGen graph.Joined SOURCE BLACKLIST

end ProximityGraph

theorem hopId_injective {i j : Int} (equal : hopId i = hopId j) : i = j :=
  PyStr.decimal_injective (List.append_cancel_left equal)

theorem hopId_ne_source (i : Int) : hopId i ≠ SOURCE := by
  simp [hopId, SOURCE, PyStr.ofString]

theorem hopId_ne_blacklist (i : Int) : hopId i ≠ BLACKLIST := by
  simp [hopId, BLACKLIST, PyStr.ofString]

section Proximity

variable (upper : PyStr -> PyStr) (txnId accountHash : PyStr) (hops : Int) (flagReason : PyStr)

theorem ids_graphProximity : (graphProximity upper txnId accountHash hops flagReason).ids =
    SOURCE :: (List.range (drawn hops)).map (fun i : Nat => hopId i) ++ [BLACKLIST] := by
  unfold ProximityGraph.ids graphProximity
  simp only [List.map_append, List.map_cons, List.map_map, List.map_nil]
  rfl

variable {upper txnId accountHash hops flagReason}

/-- The ids of the entities are those of the numbers below the number drawn. -/
theorem hopId_mem_ids_iff {i : Int} :
    hopId i ∈ (graphProximity upper txnId accountHash hops flagReason).ids ↔ 0 ≤ i ∧ i < drawn hops := by
  rw [ids_graphProximity]
  constructor
  · intro member
    rcases List.mem_append.mp member with front | last
    · rcases List.mem_cons.mp front with first | inner
      · exact absurd first (hopId_ne_source i)
      · rcases List.mem_map.mp inner with ⟨j, below, same⟩
        have number := hopId_injective same
        have bound := List.mem_range.mp below
        omega
    · exact absurd (List.mem_singleton.mp last) (hopId_ne_blacklist i)
  · rintro ⟨low, high⟩
    apply List.mem_append_left
    apply List.mem_cons_of_mem
    apply List.mem_map.mpr
    refine ⟨i.toNat, List.mem_range.mpr (by omega), ?_⟩
    rw [Int.toNat_of_nonneg low]

theorem nodup_ids : (graphProximity upper txnId accountHash hops flagReason).ids.Nodup := by
  rw [ids_graphProximity]
  have entities : ((List.range (drawn hops)).map fun i : Nat => hopId i).Nodup := by
    apply List.Nodup.map _ List.nodup_range
    intro i j equal
    exact Int.ofNat_inj.mp (hopId_injective equal)
  apply List.nodup_append.mpr
  refine ⟨List.nodup_cons.mpr ⟨?_, entities⟩, List.nodup_singleton _, ?_⟩
  · intro member
    rcases List.mem_map.mp member with ⟨i, _, same⟩
    exact hopId_ne_source i same
  · intro first left second right
    rw [List.mem_singleton.mp right]
    rcases List.mem_cons.mp left with same | inner
    · rw [same]
      decide
    · rcases List.mem_map.mp inner with ⟨i, _, same⟩
      rw [← same]
      exact hopId_ne_blacklist i

theorem source_mem_ids : SOURCE ∈ (graphProximity upper txnId accountHash hops flagReason).ids := by
  rw [ids_graphProximity]
  exact List.mem_append_left _ List.mem_cons_self

theorem blacklist_mem_ids : BLACKLIST ∈ (graphProximity upper txnId accountHash hops flagReason).ids := by
  rw [ids_graphProximity]
  exact List.mem_append_right _ (List.mem_singleton_self _)

/-- The edges between the entities have their endpoints among the nodes. -/
theorem hopEdge_endpoints {i : Nat} (below : i < drawn hops) :
    (hopEdge i).source ∈ (graphProximity upper txnId accountHash hops flagReason).ids ∧
      (hopEdge i).target ∈ (graphProximity upper txnId accountHash hops flagReason).ids := by
  constructor
  · unfold hopEdge
    dsimp only
    split
    · exact source_mem_ids
    · apply hopId_mem_ids_iff.mpr
      omega
  · apply hopId_mem_ids_iff.mpr
    omega

/-- The last edge starts at a node exactly if there are no more than five hops. -/
theorem lastEdge_source_mem_iff :
    (lastEdge hops).source ∈ (graphProximity upper txnId accountHash hops flagReason).ids ↔ hops ≤ 5 := by
  unfold lastEdge
  dsimp only
  split
  · rw [hopId_mem_ids_iff]
    unfold drawn
    omega
  · constructor
    · intro _
      omega
    · intro _
      exact source_mem_ids

theorem hopEdge_mem {i : Nat} (below : i < drawn hops) :
    hopEdge i ∈ (graphProximity upper txnId accountHash hops flagReason).edges :=
  List.mem_append_left _ (List.mem_map_of_mem (List.mem_range.mpr below))

theorem lastEdge_mem : lastEdge hops ∈ (graphProximity upper txnId accountHash hops flagReason).edges :=
  List.mem_append_right _ (List.mem_singleton_self _)

/-- A path leads from the source to every entity that is drawn. -/
theorem path_to_hop {i : Nat} (below : i < drawn hops) :
    Relation.ReflTransGen (graphProximity upper txnId accountHash hops flagReason).Joined
      SOURCE (hopId i) := by
  induction i with
  | zero =>
      apply Relation.ReflTransGen.single
      exact ⟨hopEdge 0, hopEdge_mem below, rfl, rfl⟩
  | succ i inductionHypothesis =>
      apply (inductionHypothesis (by omega)).tail
      refine ⟨hopEdge (i + 1), hopEdge_mem below, ?_, rfl⟩
      unfold hopEdge
      rw [if_neg (Nat.succ_ne_zero i)]
      push_cast
      rw [add_sub_cancel_right]

theorem path_to_blacklist (few : hops ≤ 5) :
    Relation.ReflTransGen (graphProximity upper txnId accountHash hops flagReason).Joined
      SOURCE BLACKLIST := by
  have last : (graphProximity upper txnId accountHash hops flagReason).Joined
      (lastEdge hops).source BLACKLIST := ⟨lastEdge hops, lastEdge_mem, rfl, rfl⟩
  apply Relation.ReflTransGen.tail _ last
  unfold lastEdge
  dsimp only
  split
  · rename_i more
    have below : (hops - 2).toNat < drawn hops := by
      unfold drawn
      omega
    have number : ((hops - 2).toNat : Int) = hops - 2 := Int.toNat_of_nonneg (by omega)
    rw [← number]
    exact path_to_hop below
  · exact Relation.ReflTransGen.refl

end Proximity

/-- The graph is well formed exactly for up to five hops. -/
theorem graphProximity_wellFormed_iff (upper : PyStr -> PyStr) (txnId accountHash : PyStr) (hops : Int)
    (flagReason : PyStr) :
    (graphProximity upper txnId accountHash hops flagReason).WellFormed ↔ hops ≤ 5 := by
  constructor
  · intro wellFormed
    have last := wellFormed.endpoints (lastEdge hops) lastEdge_mem
    exact lastEdge_source_mem_iff.mp last.1
  · intro few
    constructor
    · intro edge member
      rcases List.mem_append.mp member with inner | last
      · rcases List.mem_map.mp inner with ⟨i, below, same⟩
        rw [← same]
        exact hopEdge_endpoints (List.mem_range.mp below)
      · rw [List.mem_singleton.mp last]
        exact ⟨lastEdge_source_mem_iff.mpr few, blacklist_mem_ids⟩
    · exact nodup_ids
    · exact path_to_blacklist few

/-- The graph of a record without a sanctions flag, whose last edge starts nowhere. -/
theorem graphProximity_dangling :
    ¬ (graphProximity (fun digits => digits) (PyStr.ofString "TXN-00000001")
      (PyStr.ofString "0123456789012345") (detailHops (PyStr.ofString "NONE"))
      (PyStr.ofString "NONE")).WellFormed := by
  intro wellFormed
  have last := wellFormed.endpoints (lastEdge 8) (by decide)
  exact absurd last.1 (by decide)

end Charts
end ZeroAudit
