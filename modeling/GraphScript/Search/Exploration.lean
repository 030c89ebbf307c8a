import GraphScript.Graph.Arc

namespace GraphScript.Search

/-!
# Exploring arcs with a frontier

An exploration takes one node after another from its frontier and adds the
node's successors. It visits every node once. A queue gives the breadth-first
order and a stack the depth-first order.

Every visit either uses up arcs whose source was not visited before, or adds
nothing to the frontier; so the exploration ends.
-/

/-- Which end of the frontier is taken next. -/
inductive Discipline where
  | queue
  | stack
  deriving DecidableEq, Repr

namespace Discipline

/-- Take the next node from a frontier. -/
def next? :
    Discipline →
    List String →
    Option (String × List String)
  | _, [] =>
      none
  | .queue, first :: rest =>
      some (first, rest)
  | .stack, first :: rest =>
      some ((first :: rest).getLast (by simp), (first :: rest).dropLast)

/-- Add a node to a queue, unless it was visited or is waiting already. -/
def enqueue
    (visited : List String)
    (frontier : List String)
    (node : String) :
    List String :=
  if node ∈ visited ∨ node ∈ frontier then
    frontier
  else
    frontier ++ [node]

/--
Add the successors of a node to a frontier.

A stack may hold a node several times. Its successors are put on it in reverse,
so that the first of them is taken first.
-/
def extend
    (discipline : Discipline)
    (visited frontier successors : List String) :
    List String :=
  match discipline with
  | .queue =>
      successors.foldl (enqueue visited) frontier
  | .stack =>
      frontier ++ successors.reverse.filter fun node => node ∉ visited

/-- Taking a node from a frontier leaves one fewer there. -/
theorem length_next?
    {discipline : Discipline}
    {frontier rest : List String}
    {node : String}
    (taken : discipline.next? frontier = some (node, rest)) :
    rest.length + 1 = frontier.length := by
  cases frontier with
  | nil =>
      cases discipline <;> simp [next?] at taken
  | cons first others =>
      cases discipline with
      | queue =>
          simp only [next?, Option.some.injEq, Prod.mk.injEq] at taken
          simp [← taken.2]
      | stack =>
          simp only [next?, Option.some.injEq, Prod.mk.injEq] at taken
          simp [← taken.2]

@[simp] theorem extend_nil
    (discipline : Discipline)
    (visited frontier : List String) :
    discipline.extend visited frontier [] = frontier := by
  cases discipline <;> simp [extend]

end Discipline

/-- The state of an exploration right after it has visited a node. -/
structure Visit where
  node : String
  /-- All visited nodes in the order of their visits. -/
  visited : List String
  frontier : List String
  deriving DecidableEq, Repr

variable {Label : Type}

/-- The number of arcs whose sources have not been visited. -/
def openArcs
    (arcs : List (Arc Label))
    (visited : List String) :
    Nat :=
  arcs.countP fun arc => arc.source ∉ visited

theorem openArcs_append_le
    (arcs : List (Arc Label))
    (visited : List String)
    (node : String) :
    openArcs arcs (visited ++ [node]) ≤ openArcs arcs visited := by
  apply List.countP_mono_left
  intro arc _ unvisited
  simp only [List.mem_append, not_or, decide_eq_true_eq] at unvisited ⊢
  exact unvisited.1

/-- Visiting a node with successors closes the arcs that leave it. -/
theorem openArcs_append_lt
    {arcs : List (Arc Label)}
    {visited : List String}
    {node : String}
    (unvisited : node ∉ visited)
    (leaves : Arc.successors arcs node ≠ []) :
    openArcs arcs (visited ++ [node]) < openArcs arcs visited := by
  induction arcs with
  | nil =>
      simp [Arc.successors, Arc.leaving] at leaves
  | cons arc rest inductionHypothesis =>
      have shrinks := openArcs_append_le rest visited node
      unfold openArcs at shrinks inductionHypothesis ⊢
      simp only [List.countP_cons]
      by_cases isSource : arc.source = node
      · have closed : arc.source ∈ visited ++ [node] := by
          simp [isSource]
        rw [← isSource] at unvisited
        simp only [closed, unvisited, not_true_eq_false, decide_false,
          Bool.false_eq_true, if_false, not_false_eq_true, decide_true,
          if_true]
        omega
      · have later : Arc.successors rest node ≠ [] := by
          simpa [Arc.successors, Arc.leaving, isSource] using leaves
        have fewer := inductionHypothesis later
        have same :
            arc.source ∈ visited ++ [node] ↔ arc.source ∈ visited := by
          simp [isSource]
        simp only [same]
        omega

/-- A visit leaves fewer arcs open, or a shorter frontier. -/
theorem measure_extend_lt
    (arcs : List (Arc Label))
    (discipline : Discipline)
    {visited frontier rest : List String}
    {node : String}
    (shorter : rest.length + 1 = frontier.length)
    (unvisited : node ∉ visited) :
    Prod.Lex (· < ·) (· < ·)
      (openArcs arcs (visited ++ [node]),
        (discipline.extend (visited ++ [node]) rest
          (Arc.successors arcs node)).length)
      (openArcs arcs visited, frontier.length) := by
  by_cases leaves : Arc.successors arcs node = []
  · rcases Nat.lt_or_eq_of_le (openArcs_append_le arcs visited node) with
      fewer | same
    · exact Prod.Lex.left _ _ fewer
    · rw [leaves, Discipline.extend_nil, same]
      exact Prod.Lex.right _ (by omega)
  · exact Prod.Lex.left _ _ (openArcs_append_lt unvisited leaves)

/-- Visit the nodes of a frontier and all that they lead to. -/
def exploreFrom
    (arcs : List (Arc Label))
    (discipline : Discipline)
    (visited frontier : List String) :
    List Visit :=
  match taken : discipline.next? frontier with
  | none =>
      []
  | some (node, rest) =>
      have : rest.length + 1 = frontier.length :=
        Discipline.length_next? taken
      if node ∈ visited then
        exploreFrom arcs discipline visited rest
      else
        let nowVisited := visited ++ [node]
        let nowWaiting :=
          discipline.extend nowVisited rest (Arc.successors arcs node)
        ⟨node, nowVisited, nowWaiting⟩ ::
          exploreFrom arcs discipline nowVisited nowWaiting
termination_by (openArcs arcs visited, frontier.length)
decreasing_by
  · exact Prod.Lex.right _ (by omega)
  · exact measure_extend_lt arcs discipline this ‹_›

/-- The visits of an exploration from a node. -/
def explore
    (arcs : List (Arc Label))
    (discipline : Discipline)
    (start : String) :
    List Visit :=
  exploreFrom arcs discipline [] [start]

/-- The nodes that an exploration visits, in order. -/
def visitOrder
    (arcs : List (Arc Label))
    (discipline : Discipline)
    (start : String) :
    List String :=
  (explore arcs discipline start).map (·.node)

end GraphScript.Search
