import Mathlib.Combinatorics.SimpleGraph.Walk.Maps
import Mathlib.Data.List.Dedup
import Mathlib.Data.List.Range

namespace Foundation
namespace Hops

open SimpleGraph

/-!
# Counting hops in a graph that is given by its edges

Edges are pairs of vertices and are walked in both directions.  The vertices a number of
hops away are computed hop by hop, and the number of hops to the nearest target is the
first at which a target is among them, up to a limit.  A level that changes by at most one
along every edge and vanishes at the targets is a lower bound for it.
-/

variable {V : Type*} [DecidableEq V] {edges : List (V × V)} {target : V -> Bool}

/-- The graph of a list of edges. -/
def graphOf (edges : List (V × V)) : SimpleGraph V := SimpleGraph.fromRel fun u v => (u, v) ∈ edges

/-- The vertices one hop away. -/
def neighbours (edges : List (V × V)) (vertex : V) : List V :=
  edges.filterMap fun edge =>
    if edge.1 = vertex ∧ edge.2 ≠ vertex then some edge.2
    else if edge.2 = vertex ∧ edge.1 ≠ vertex then some edge.1
    else none

/-- The vertices a number of hops away from some of these. -/
def frontier (edges : List (V × V)) : Nat -> List V -> List V
  | 0, vertices => vertices
  | hops + 1, vertices => frontier edges hops (vertices.flatMap (neighbours edges)).dedup

/-- The number of hops to the nearest target, from one up to a limit. -/
def nearest (edges : List (V × V)) (target : V -> Bool) (limit : Nat) (source : V) : Option Nat :=
  (List.range' 1 limit).find? fun hops => (frontier edges hops [source]).any target

/-! ## Walks -/

omit [DecidableEq V] in
theorem adj_graphOf {u v : V} : (graphOf edges).Adj u v ↔ u ≠ v ∧ ((u, v) ∈ edges ∨ (v, u) ∈ edges) :=
  SimpleGraph.fromRel_adj ..

theorem mem_neighbours {vertex other : V} : other ∈ neighbours edges vertex ↔ (graphOf edges).Adj vertex other := by
  rw [adj_graphOf]
  unfold neighbours
  rw [List.mem_filterMap]
  constructor
  · rintro ⟨⟨u, v⟩, member, found⟩
    dsimp only at found
    split at found
    · next forward =>
        cases found
        exact ⟨fun same => forward.2 same.symm, Or.inl (forward.1 ▸ member)⟩
    · split at found
      · next backward =>
          cases found
          exact ⟨fun same => backward.2 same.symm, Or.inr (backward.1 ▸ member)⟩
      · cases found
  · rintro ⟨apart, forward | backward⟩
    · exact ⟨_, forward, by simp [apart.symm]⟩
    · exact ⟨_, backward, by simp [apart.symm]⟩

/-- What lies a number of hops away is the end of a walk of this length. -/
theorem mem_frontier {hops : Nat} {vertices : List V} {other : V} :
    other ∈ frontier edges hops vertices ↔
      ∃ vertex ∈ vertices, ∃ walk : (graphOf edges).Walk vertex other, walk.length = hops := by
  induction hops generalizing vertices with
  | zero =>
      constructor
      · intro member
        exact ⟨other, member, .nil, rfl⟩
      · rintro ⟨vertex, member, walk, empty⟩
        cases Walk.eq_of_length_eq_zero empty
        exact member
  | succ hops inductionHypothesis =>
      rw [frontier, inductionHypothesis]
      constructor
      · rintro ⟨next, member, walk, length⟩
        rcases List.mem_flatMap.mp (List.mem_dedup.mp member) with ⟨vertex, own, beside⟩
        exact ⟨vertex, own, .cons (mem_neighbours.mp beside) walk, by rw [Walk.length_cons, length]⟩
      · rintro ⟨vertex, own, walk, length⟩
        cases walk with
        | nil => cases length
        | cons step rest =>
            refine ⟨_, List.mem_dedup.mpr (List.mem_flatMap.mpr ⟨vertex, own, mem_neighbours.mpr step⟩), rest, ?_⟩
            exact Nat.succ.inj length

/-- A target is reached by a walk of this length. -/
def Reaches (edges : List (V × V)) (target : V -> Bool) (source : V) (hops : Nat) : Prop :=
  ∃ vertex, target vertex = true ∧ ∃ walk : (graphOf edges).Walk source vertex, walk.length = hops

omit [DecidableEq V] in
theorem adj_reaches {u v : V} {hops : Nat} (step : (graphOf edges).Adj u v) (reaches : Reaches edges target v hops) :
    Reaches edges target u (hops + 1) := by
  rcases reaches with ⟨vertex, reached, walk, length⟩
  exact ⟨vertex, reached, .cons step walk, by rw [Walk.length_cons, length]⟩

omit [DecidableEq V] in
/-- More edges reach as much. -/
theorem Reaches.mono {larger : List (V × V)} (le : edges ⊆ larger) {source : V} {hops : Nat}
    (reaches : Reaches edges target source hops) : Reaches larger target source hops := by
  rcases reaches with ⟨vertex, reached, walk, length⟩
  have within : graphOf edges ≤ graphOf larger := by
    intro u v step
    rw [adj_graphOf] at step ⊢
    exact ⟨step.1, step.2.imp (fun forward => le forward) fun backward => le backward⟩
  exact ⟨vertex, reached, walk.mapLe within, by rw [Walk.length_mapLe, length]⟩

theorem any_frontier {hops : Nat} {source : V} :
    (frontier edges hops [source]).any target = true ↔ Reaches edges target source hops := by
  rw [List.any_eq_true]
  constructor
  · rintro ⟨vertex, member, reached⟩
    rcases mem_frontier.mp member with ⟨own, single, walk, length⟩
    cases List.mem_singleton.mp single
    exact ⟨vertex, reached, walk, length⟩
  · rintro ⟨vertex, reached, walk, length⟩
    exact ⟨vertex, mem_frontier.mpr ⟨source, List.mem_singleton_self source, walk, length⟩, reached⟩

/-- The nearest target: it is reached, and none is with fewer hops. -/
theorem nearest_eq_some_iff {limit hops : Nat} {source : V} :
    nearest edges target limit source = some hops ↔
      (1 ≤ hops ∧ hops ≤ limit) ∧ Reaches edges target source hops ∧
        ∀ fewer, 1 ≤ fewer -> fewer < hops -> ¬Reaches edges target source fewer := by
  unfold nearest
  rw [List.find?_range'_eq_some, any_frontier, List.mem_range'_1]
  constructor
  · rintro ⟨reaches, range, never⟩
    refine ⟨⟨range.1, by omega⟩, reaches, ?_⟩
    intro fewer positive less found
    have missed := never fewer positive less
    rw [any_frontier.mpr found] at missed
    cases missed
  · rintro ⟨range, reaches, never⟩
    refine ⟨reaches, ⟨range.1, by omega⟩, ?_⟩
    intro fewer positive less
    have missed := never fewer positive less
    rw [← any_frontier, Bool.not_eq_true] at missed
    rw [missed, Bool.not_false]

theorem nearest_eq_none_iff {limit : Nat} {source : V} :
    nearest edges target limit source = none ↔
      ∀ hops, 1 ≤ hops -> hops ≤ limit -> ¬Reaches edges target source hops := by
  unfold nearest
  rw [List.find?_eq_none]
  constructor
  · intro never hops positive atMost reaches
    exact never hops (List.mem_range'_1.mpr ⟨positive, by omega⟩) (any_frontier.mpr reaches)
  · intro never hops member found
    have range := List.mem_range'_1.mp member
    exact never hops range.1 (by omega) (any_frontier.mp found)

/-! ## Levels -/

/-- A level that changes by at most one along every edge, and vanishes at the targets. -/
structure Levels (edges : List (V × V)) (target : V -> Bool) (level : V -> Nat) : Prop where
  edges : ∀ u v, (u, v) ∈ edges -> level u ≤ level v + 1 ∧ level v ≤ level u + 1
  targets : ∀ v, target v = true -> level v = 0

omit [DecidableEq V] in
/-- Nothing is reached with fewer hops than the level. -/
theorem Levels.le_of_reaches {level : V -> Nat} (levels : Levels edges target level) {source : V} {hops : Nat}
    (reaches : Reaches edges target source hops) : level source ≤ hops := by
  rcases reaches with ⟨vertex, reached, walk, length⟩
  have bound : level source ≤ level vertex + walk.length := by
    clear length
    induction walk with
    | nil => exact Nat.le_add_right _ _
    | cons step rest inductionHypothesis =>
        have next := inductionHypothesis reached
        rw [Walk.length_cons]
        rcases (adj_graphOf.mp step).2 with forward | backward
        · have change := (levels.edges _ _ forward).1
          omega
        · have change := (levels.edges _ _ backward).2
          omega
  rw [levels.targets vertex reached, length] at bound
  omega

/-- A level that is reached is the number of hops. -/
theorem Levels.nearest_eq {level : V -> Nat} (levels : Levels edges target level) {source : V} {limit : Nat}
    (positive : 1 ≤ level source) (atMost : level source ≤ limit)
    (reaches : Reaches edges target source (level source)) :
    nearest edges target limit source = some (level source) := by
  rw [nearest_eq_some_iff]
  refine ⟨⟨positive, atMost⟩, reaches, ?_⟩
  intro fewer _ less reached
  have bound := levels.le_of_reaches reached
  omega

end Hops
end Foundation
