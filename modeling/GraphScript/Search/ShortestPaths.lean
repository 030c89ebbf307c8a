import GraphScript.Search.Weight

namespace GraphScript.Search

/-!
# Shortest paths

The nearest node that is not settled yet is settled next, and the arcs that
leave it may shorten the distances of the others. Of equally near nodes, the
first one in the order of the nodes is taken. The search ends when no node that
is left can be reached, or when its target is settled.
-/

variable {Sum : Type} [Weight Sum]

/-- The distances found so far, and the node before each one on its path. -/
structure Tentative (Sum : Type) where
  /-- The distance of every node, unless it has not been reached. -/
  distances : NameMap (Option Sum)
  previous : NameMap String

namespace Tentative

/-- Only the start has been reached. -/
def atStart
    (nodes : List String)
    (start : String) :
    Tentative Sum :=
  let unreached := NameMap.ofList (nodes.map fun node => (node, none))
  ⟨unreached.insert start (some Weight.zero), .empty⟩

/-- The distance of a node, if it has been reached. -/
def distance?
    (tentative : Tentative Sum)
    (node : String) :
    Option Sum :=
  (tentative.distances.get? node).join

/-- Whether a distance is shorter than the one of a node found so far. -/
def improves
    (tentative : Tentative Sum)
    (node : String)
    (candidate : Sum) :
    Bool :=
  match tentative.distance? node with
  | some distance => Weight.less candidate distance
  | none => true

/-- Try to shorten the distance of a node through the node settled last. -/
def relax
    (pending : List String)
    (node : String)
    (distance : Sum)
    (tentative : Tentative Sum)
    (step : String × Sum) :
    Tentative Sum :=
  let (target, weight) := step
  match Weight.add? distance weight with
  | some candidate =>
      if target ∈ pending ∧ tentative.improves target candidate then
        { distances := tentative.distances.insert target (some candidate)
          previous := tentative.previous.insert target node }
      else
        tentative
  | none =>
      tentative

/-- Try to shorten distances along all arcs that leave a settled node. -/
def relaxAll
    (arcs : List (Arc Sum))
    (pending : List String)
    (node : String)
    (distance : Sum)
    (tentative : Tentative Sum) :
    Tentative Sum :=
  (Arc.leaving arcs node).foldl (relax pending node distance) tentative

/-- The nearest of some nodes, the first one among equals. -/
def nearest?
    (tentative : Tentative Sum) :
    List String →
    Option (String × Sum)
  | [] =>
      none
  | node :: rest =>
      match tentative.distance? node, tentative.nearest? rest with
      | none, later =>
          later
      | some distance, none =>
          some (node, distance)
      | some distance, some (other, otherDistance) =>
          if Weight.less otherDistance distance then
            some (other, otherDistance)
          else
            some (node, distance)

theorem mem_of_nearest?
    {tentative : Tentative Sum}
    {nodes : List String}
    {node : String}
    {distance : Sum}
    (found : tentative.nearest? nodes = some (node, distance)) :
    node ∈ nodes := by
  induction nodes with
  | nil =>
      simp [nearest?] at found
  | cons first rest inductionHypothesis =>
      unfold nearest? at found
      split at found
      · exact List.mem_cons_of_mem _ (inductionHypothesis found)
      · simp only [Option.some.injEq, Prod.mk.injEq] at found
        simp [found.1]
      · next other otherDistance _ isLater =>
          split at found
          · simp only [Option.some.injEq, Prod.mk.injEq] at found
            apply List.mem_cons_of_mem
            apply inductionHypothesis
            rw [isLater, found.1, found.2]
          · simp only [Option.some.injEq, Prod.mk.injEq] at found
            simp [found.1]

/-- Follow the paths found so far back from a node to where they start. -/
def traceBack
    (previous : NameMap String)
    (node : String) :
    List String :=
  match isPrevious : previous.get? node with
  | some before =>
      have : (previous.erase node).size < previous.size :=
        previous.size_erase_lt node before isPrevious
      traceBack (previous.erase node) before ++ [node]
  | none =>
      [node]
termination_by previous.size

/-- The path to a node, which is empty when the node has not been reached. -/
def pathTo
    (tentative : Tentative Sum)
    (node : String) :
    List String :=
  if (tentative.distance? node).isSome then
    traceBack tentative.previous node
  else
    []

end Tentative

/-- The state of a search right after it has settled a node. -/
structure Settled (Sum : Type) where
  node : String
  distance : Sum
  /-- All settled nodes in order. -/
  visited : List String
  /-- The nodes that have been reached and not been settled. -/
  waiting : List String
  distances : NameMap (Option Sum)

/-- Settle pending nodes, nearest first, up to the target. -/
def settleFrom
    (arcs : List (Arc Sum))
    (target : Option String)
    (pending visited : List String)
    (tentative : Tentative Sum) :
    List (Settled Sum) × Tentative Sum :=
  match isNearest : tentative.nearest? pending with
  | none =>
      ([], tentative)
  | some (node, distance) =>
      have : (pending.erase node).length < pending.length := by
        have member := Tentative.mem_of_nearest? isNearest
        have positive := List.length_pos_of_mem member
        rw [List.length_erase_of_mem member]
        omega
      let left := pending.erase node
      let next := tentative.relaxAll arcs left node distance
      let settled : Settled Sum :=
        { node
          distance
          visited := visited ++ [node]
          waiting := left.filter fun other => (next.distance? other).isSome
          distances := next.distances }
      if target = some node then
        ([settled], next)
      else
        let (later, last) :=
          settleFrom arcs target left (visited ++ [node]) next
        (settled :: later, last)
termination_by pending.length

/-- A finished search: what it settled, and the distances it ended with. -/
structure ShortestPaths (Sum : Type) where
  initial : Tentative Sum
  settled : List (Settled Sum)
  final : Tentative Sum

/--
Search a graph for the shortest paths from a node.

The graph needs two nodes, the start and the target have to be nodes of it, and
every weight has to be a number that is not below zero.
-/
def shortestPaths
    (graph : Graph)
    (start : String)
    (target : Option String) :
    Except Failure (ShortestPaths Sum) :=
  if graph.nodes.size < 2 then
    .error (.tooFewNodes .dijkstra 2 graph.nodes.size)
  else if !graph.hasNode start then
    .error (.startNotFound start)
  else
    match target.filter fun node => !graph.hasNode node with
    | some node =>
        .error (.targetNotFound node)
    | none =>
        (weightedArcs graph).map fun arcs =>
          let initial := Tentative.atStart graph.nodeNames start
          let (settled, final) :=
            settleFrom arcs target graph.nodeNames [] initial
          { initial, settled, final }

end GraphScript.Search
