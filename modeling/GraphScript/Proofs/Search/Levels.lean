import GraphScript.Proofs.NameMap
import GraphScript.Proofs.Search.Walks
import Mathlib.Data.List.Induction
import Mathlib.Data.List.Nodup
import Mathlib.Order.Bounds.Basic

namespace GraphScript.Graph

/-!
# Levels of a graph

The first level is the start. Each further level lists the nodes next to those
of the level before, in their order, as far as no earlier level has them. The
nodes of a level are those whose nearest walk from the start has as many edges
as there are earlier levels.
-/

/-- The nodes of a list that have not been seen, each where it occurs first. -/
def unseen
    (seen nodes : List String) :
    List String :=
  (nodes.filter fun node => node ∉ seen).eraseDups

/-- A level, together with the nodes of all earlier levels. -/
structure Level where
  earlier : List String
  nodes : List String

namespace Level

/-- The nodes of a level and of all earlier ones. -/
def upTo
    (level : Level) :
    List String :=
  level.earlier ++ level.nodes

/-- The level after another one. -/
def next
    (graph : Graph)
    (level : Level) :
    Level :=
  { earlier := level.upTo
    nodes := unseen level.upTo (level.nodes.flatMap graph.nextNodes) }

end Level

/-- The level at some number of edges from the start, after the earlier ones. -/
def levelAt
    (graph : Graph)
    (start : String) :
    Nat →
    Level
  | 0 => ⟨[], [start]⟩
  | hops + 1 => (graph.levelAt start hops).next graph

/-- The nodes at some number of edges from the start, in the order of levels. -/
def level
    (graph : Graph)
    (start : String)
    (hops : Nat) :
    List String :=
  (graph.levelAt start hops).nodes

/-- A walk along some number of edges leads from the start to a node. -/
inductive ReachesIn
    (graph : Graph)
    (start : String) :
    Nat → String → Prop
  | here :
      ReachesIn graph start 0 start
  | along
      {hops : Nat}
      {node next : String}
      (walk : ReachesIn graph start hops node)
      (adjoins : graph.Adjoins node next) :
      ReachesIn graph start (hops + 1) next

/-- The nearest walk from the start to a node has some number of edges. -/
def IsDistance
    (graph : Graph)
    (start node : String)
    (hops : Nat) :
    Prop :=
  IsLeast {length | graph.ReachesIn start length node} hops

/-! ## Nodes that have not been seen -/

section Unseen

variable {seen nodes : List String} {node : String}

@[simp] theorem unseen_nil
    (seen : List String) :
    unseen seen [] = [] :=
  rfl

theorem mem_unseen_iff :
    node ∈ unseen seen nodes ↔ node ∈ nodes ∧ node ∉ seen := by
  simp [unseen, List.mem_eraseDups]

/-- One more node is listed last, if it has been neither seen nor listed. -/
theorem unseen_append_singleton
    (seen nodes : List String)
    (node : String) :
    unseen seen (nodes ++ [node]) =
      if node ∈ seen ∨ node ∈ unseen seen nodes then
        unseen seen nodes
      else
        unseen seen nodes ++ [node] := by
  by_cases isSeen : node ∈ seen
  · simp [unseen, isSeen]
  · have kept :
        unseen seen (nodes ++ [node]) =
          ((nodes.filter fun other => other ∉ seen) ++ [node]).eraseDups := by
      simp [unseen, isSeen]
    rw [kept, NameMap.eraseDups_append_singleton]
    simp [unseen, isSeen, List.mem_eraseDups]

theorem nodup_unseen
    (seen nodes : List String) :
    (unseen seen nodes).Nodup := by
  induction nodes using List.reverseRecOn with
  | nil =>
      simp [unseen]
  | append_singleton earlier last inductionHypothesis =>
      rw [unseen_append_singleton]
      split
      · exact inductionHypothesis
      · next isNew =>
          rw [← List.concat_eq_append]
          exact inductionHypothesis.concat fun listed => isNew (.inr listed)

end Unseen

variable {graph : Graph} {start node other : String} {hops : Nat}

/-! ## The nodes of levels -/

theorem earlier_levelAt
    (graph : Graph)
    (start : String)
    (hops : Nat) :
    (graph.levelAt start hops).earlier =
      (List.range hops).flatMap (graph.level start) := by
  induction hops with
  | zero =>
      rfl
  | succ hops inductionHypothesis =>
      simp [levelAt, Level.next, Level.upTo, inductionHypothesis,
        List.range_succ, level]

/-- A level has what is next to the level before and in no earlier level. -/
theorem level_succ
    (graph : Graph)
    (start : String)
    (hops : Nat) :
    graph.level start (hops + 1) =
      unseen ((List.range (hops + 1)).flatMap (graph.level start))
        ((graph.level start hops).flatMap graph.nextNodes) := by
  rw [← earlier_levelAt]
  rfl

/-- No node is in two levels, or twice in one. -/
theorem nodup_upTo_levelAt
    (graph : Graph)
    (start : String)
    (hops : Nat) :
    (graph.levelAt start hops).upTo.Nodup := by
  induction hops with
  | zero =>
      exact List.nodup_singleton start
  | succ hops inductionHypothesis =>
      refine List.nodup_append.mpr
        ⟨inductionHypothesis, nodup_unseen _ _, ?_⟩
      intro node isEarlier later isLater same
      exact (mem_unseen_iff.mp isLater).2 (same ▸ isEarlier)

/-- What is next to a node of an earlier level is in that level or before. -/
theorem mem_upTo_of_adjoins
    (isEarlier : node ∈ (graph.levelAt start hops).earlier)
    (adjoins : graph.Adjoins node other) :
    other ∈ (graph.levelAt start hops).upTo := by
  induction hops with
  | zero =>
      cases isEarlier
  | succ hops inductionHypothesis =>
      by_cases isKnown : other ∈ (graph.levelAt start hops).upTo
      · exact List.mem_append_left _ isKnown
      · rcases List.mem_append.mp isEarlier with before | isLast
        · exact absurd (inductionHypothesis before) isKnown
        · have follows :
              other ∈
                (graph.levelAt start hops).nodes.flatMap graph.nextNodes :=
            List.mem_flatMap.mpr ⟨node, isLast, mem_nextNodes_iff.mpr adjoins⟩
          exact List.mem_append_right _
            (mem_unseen_iff.mpr ⟨follows, isKnown⟩)

/-- The levels up to some number have what walks of that many edges reach. -/
theorem mem_upTo_levelAt_iff :
    node ∈ (graph.levelAt start hops).upTo ↔
      ∃ length, length ≤ hops ∧ graph.ReachesIn start length node := by
  induction hops generalizing node with
  | zero =>
      constructor
      · intro isStart
        cases List.mem_singleton.mp isStart
        exact ⟨0, Nat.le_refl 0, .here⟩
      · rintro ⟨length, isZero, walk⟩
        cases walk with
        | here => exact List.mem_singleton_self start
        | along => cases isZero
  | succ hops inductionHypothesis =>
      constructor
      · intro listed
        rcases List.mem_append.mp listed with isEarlier | isNext
        · obtain ⟨length, atMost, walk⟩ := inductionHypothesis.mp isEarlier
          exact ⟨length, Nat.le_succ_of_le atMost, walk⟩
        · obtain ⟨before, isBefore, follows⟩ :=
            List.mem_flatMap.mp (mem_unseen_iff.mp isNext).1
          obtain ⟨length, atMost, walk⟩ :=
            inductionHypothesis.mp (List.mem_append_right _ isBefore)
          exact ⟨length + 1, Nat.succ_le_succ atMost,
            walk.along (mem_nextNodes_iff.mp follows)⟩
      · rintro ⟨length, atMost, walk⟩
        cases walk with
        | here =>
            exact List.mem_append_left _
              (inductionHypothesis.mpr ⟨0, Nat.zero_le hops, .here⟩)
        | along walk adjoins =>
            have isEarlier :=
              inductionHypothesis.mpr ⟨_, Nat.le_of_succ_le_succ atMost, walk⟩
            exact mem_upTo_of_adjoins isEarlier adjoins

theorem mem_earlier_levelAt_iff :
    node ∈ (graph.levelAt start hops).earlier ↔
      ∃ length, length < hops ∧ graph.ReachesIn start length node := by
  cases hops with
  | zero =>
      simp [levelAt]
  | succ hops =>
      simp only [Nat.lt_succ_iff]
      exact mem_upTo_levelAt_iff

/-- A level has the nodes whose nearest walks have its number of edges. -/
theorem mem_level_iff :
    node ∈ graph.level start hops ↔ graph.IsDistance start node hops := by
  constructor
  · intro listed
    obtain ⟨length, atMost, walk⟩ :=
      mem_upTo_levelAt_iff.mp (List.mem_append_right _ listed)
    have notEarlier : node ∉ (graph.levelAt start hops).earlier := by
      intro isEarlier
      exact (List.nodup_append.mp (nodup_upTo_levelAt graph start hops)).2.2
        node isEarlier node listed rfl
    have least :
        ∀ shorter, graph.ReachesIn start shorter node → hops ≤ shorter := by
      intro shorter shorterWalk
      apply Nat.le_of_not_lt
      intro below
      exact notEarlier
        (mem_earlier_levelAt_iff.mpr ⟨shorter, below, shorterWalk⟩)
    cases Nat.le_antisymm atMost (least length walk)
    exact ⟨walk, least⟩
  · rintro ⟨walk, least⟩
    have listed :=
      mem_upTo_levelAt_iff.mpr ⟨hops, Nat.le_refl hops, walk⟩
    rcases List.mem_append.mp listed with isEarlier | isLast
    · obtain ⟨length, below, shorterWalk⟩ :=
        mem_earlier_levelAt_iff.mp isEarlier
      exact absurd (least shorterWalk) (Nat.not_le.mpr below)
    · exact isLast

/-! ## All levels -/

/-- After an empty level, all are empty. -/
theorem level_eq_nil_of_le
    {later : Nat}
    (isEmpty : graph.level start hops = [])
    (isLater : hops ≤ later) :
    graph.level start later = [] := by
  induction isLater with
  | refl =>
      exact isEmpty
  | step _ inductionHypothesis =>
      rw [level_succ, inductionHypothesis, List.flatMap_nil, unseen_nil]

/-- As long as no level is empty, each one adds a node. -/
theorem le_length_flatMap_level
    (nonempty : ∀ earlier, earlier < hops → graph.level start earlier ≠ []) :
    hops ≤ ((List.range hops).flatMap (graph.level start)).length := by
  induction hops with
  | zero =>
      exact Nat.zero_le _
  | succ hops inductionHypothesis =>
      have fewer :=
        inductionHypothesis fun earlier below =>
          nonempty earlier (Nat.lt_succ_of_lt below)
      have positive :=
        List.length_pos_iff.mpr (nonempty hops (Nat.lt_succ_self hops))
      simp only [List.range_succ, List.flatMap_append, List.flatMap_singleton,
        List.length_append]
      omega

/-- Level after level, the nodes are listed with the nearer ones first. -/
theorem pairwise_flatMap_level
    (graph : Graph)
    (start : String)
    (depth : Nat) :
    ((List.range depth).flatMap (graph.level start)).Pairwise
      fun node later =>
        ∀ hops laterHops,
          graph.IsDistance start node hops →
          graph.IsDistance start later laterHops →
          hops ≤ laterHops := by
  have ordered :
      ∀ {first second : Nat}, first ≤ second →
        ∀ node ∈ graph.level start first, ∀ later ∈ graph.level start second,
        ∀ hops laterHops,
          graph.IsDistance start node hops →
          graph.IsDistance start later laterHops →
          hops ≤ laterHops := by
    intro first second inOrder node isNode later isLater hops laterHops
      isHops isLaterHops
    rw [isHops.unique (mem_level_iff.mp isNode),
      isLaterHops.unique (mem_level_iff.mp isLater)]
    exact inOrder
  refine List.pairwise_flatMap.mpr ⟨?_, ?_⟩
  · intro hops _
    exact List.pairwise_of_forall_mem_list fun node isNode later isLater =>
      ordered (Nat.le_refl hops) node isNode later isLater
  · exact List.pairwise_lt_range.imp fun below =>
      ordered (Nat.le_of_lt below)

end GraphScript.Graph
