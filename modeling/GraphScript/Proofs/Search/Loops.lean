import GraphScript.Proofs.Search.ReachedNodes
import GraphScript.Proofs.Search.Relaxation

namespace GraphScript.Search

/-!
# Arcs from a node to itself

Neither an exploration nor a search for shortest paths gains anything from an
arc that leads back to the node it leaves: by the time the arc is followed, the
node has been visited or settled. So two lists of arcs are searched in the same
way if they lead from every node to the same other nodes in the same order.
-/

/-- The steps among those from a node that do not lead back to it. -/
def otherSteps
    {Label : Type}
    (node : String)
    (steps : List (String × Label)) :
    List (String × Label) :=
  steps.filter (·.1 ≠ node)

/-! ## Explorations -/

namespace Discipline

/-- A node that was visited does not wait again. -/
theorem enqueue_of_visited
    {visited : List String}
    {node : String}
    (isVisited : node ∈ visited)
    (frontier : List String) :
    enqueue visited frontier node = frontier :=
  if_pos (.inl isVisited)

/-- A frontier is not extended by a node that has been visited. -/
theorem extend_filter_ne
    (discipline : Discipline)
    {visited : List String}
    {node : String}
    (isVisited : node ∈ visited)
    (frontier successors : List String) :
    discipline.extend visited frontier (successors.filter (· ≠ node)) =
      discipline.extend visited frontier successors := by
  cases discipline with
  | queue =>
      simp only [extend]
      rw [List.foldl_filter]
      congr 1
      funext waiting other
      by_cases same : other = node
      · rw [same, enqueue_of_visited isVisited, ite_self]
      · rw [if_pos (decide_eq_true same)]
  | stack =>
      simp only [extend]
      rw [← List.filter_reverse, List.filter_filter]
      congr 2
      funext other
      by_cases same : other = node
      · simp [same, isVisited]
      · simp [same]

/-- A loop adds nothing to wait for once its node is visited. -/
theorem extend_otherSteps
    {Label : Type}
    (discipline : Discipline)
    {visited : List String}
    {node : String}
    (isVisited : node ∈ visited)
    (frontier : List String)
    (steps : List (String × Label)) :
    discipline.extend visited frontier ((otherSteps node steps).map Prod.fst) =
      discipline.extend visited frontier (steps.map Prod.fst) := by
  rw [← discipline.extend_filter_ne isVisited frontier (steps.map Prod.fst),
    List.filter_map]
  rfl

end Discipline

section Exploring

variable
  {Label Other : Type}
  {arcs : List (Arc Label)}
  {others : List (Arc Other)}
  {discipline : Discipline}
  {visited frontier : List String}

/-- Two lists of arcs lead from every node to the same other nodes. -/
def LeadAlike
    (arcs : List (Arc Label))
    (others : List (Arc Other)) :
    Prop :=
  ∀ node,
    (otherSteps node (Arc.leaving arcs node)).map Prod.fst =
      (otherSteps node (Arc.leaving others node)).map Prod.fst

/-- Arcs that lead alike extend a frontier alike. -/
theorem LeadAlike.extend
    (alike : LeadAlike arcs others)
    (node : String) :
    discipline.extend (visited ++ [node]) frontier
        (Arc.successors arcs node) =
      discipline.extend (visited ++ [node]) frontier
        (Arc.successors others node) := by
  have isVisited : node ∈ visited ++ [node] := List.mem_concat_self
  unfold Arc.successors
  rw [← discipline.extend_otherSteps isVisited, alike node,
    discipline.extend_otherSteps isVisited]

/-- Arcs that lead alike are explored alike. -/
theorem LeadAlike.exploreFrom
    (alike : LeadAlike arcs others) :
    exploreFrom arcs discipline visited frontier =
      exploreFrom others discipline visited frontier := by
  induction visited, frontier using exploreFrom.induct arcs discipline with
  | case1 visited frontier none =>
      rw [exploreFrom_of_none none, exploreFrom_of_none none]
  | case2 visited frontier node rest taken shorter isVisited
      inductionHypothesis =>
      rw [exploreFrom_of_visited taken isVisited,
        exploreFrom_of_visited taken isVisited, inductionHypothesis]
  | case3 visited frontier node rest taken shorter unvisited nowVisited
      nowWaiting inductionHypothesis =>
      rw [exploreFrom_of_unvisited taken unvisited,
        exploreFrom_of_unvisited taken unvisited, ← alike.extend]
      exact congrArg _ inductionHypothesis

/-- An exploration makes the same visits along arcs that lead alike. -/
theorem LeadAlike.explore
    (alike : LeadAlike arcs others)
    (discipline : Discipline)
    (start : String) :
    explore arcs discipline start = explore others discipline start :=
  alike.exploreFrom

end Exploring

/-! ## Searches for shortest paths -/

section Settling

variable
  {Sum : Type} [Weight Sum]
  {arcs others : List (Arc Sum)}
  {target : Option String}
  {pending visited : List String}
  {tentative : Tentative Sum}
  {node : String}
  {distance : Sum}

theorem relax_of_settled
    {target : String}
    (isSettled : target ∉ pending)
    (weight : Sum) :
    tentative.relax pending node distance (target, weight) = tentative := by
  simp only [Tentative.relax, isSettled, false_and, if_false]
  split <;> rfl

/-- A loop relaxes nothing once its node is settled. -/
theorem foldl_relax_otherSteps
    (isSettled : node ∉ pending)
    (steps : List (String × Sum)) :
    (otherSteps node steps).foldl
        (Tentative.relax pending node distance) tentative =
      steps.foldl (Tentative.relax pending node distance) tentative := by
  unfold otherSteps
  rw [List.foldl_filter]
  congr 1
  funext before step
  by_cases same : step.1 = node
  · rw [relax_of_settled (same ▸ isSettled), ite_self]
  · rw [if_pos (decide_eq_true same)]

/-- Two lists of arcs lead from every node to the same other nodes by the same
weights. -/
def WeighAlike
    (arcs others : List (Arc Sum)) :
    Prop :=
  ∀ node,
    otherSteps node (Arc.leaving arcs node) =
      otherSteps node (Arc.leaving others node)

/-- Arcs that weigh alike settle a node alike. -/
theorem WeighAlike.settle
    (alike : WeighAlike arcs others)
    (distinct : pending.Nodup) :
    settle arcs pending tentative node distance =
      settle others pending tentative node distance := by
  have isSettled : node ∉ pending.erase node := distinct.not_mem_erase
  unfold Search.settle Tentative.relaxAll
  rw [← foldl_relax_otherSteps isSettled, alike node,
    foldl_relax_otherSteps isSettled]

theorem WeighAlike.settledAt
    (alike : WeighAlike arcs others)
    (distinct : pending.Nodup) :
    settledAt arcs pending visited tentative node distance =
      settledAt others pending visited tentative node distance := by
  unfold Search.settledAt
  rw [alike.settle distinct]

/-- Arcs that weigh alike are searched alike. -/
theorem WeighAlike.settleFrom
    (alike : WeighAlike arcs others)
    (distinct : pending.Nodup) :
    settleFrom arcs target pending visited tentative =
      settleFrom others target pending visited tentative := by
  induction pending, visited, tentative using settleFrom.induct arcs target with
  | case1 pending visited tentative none =>
      rw [settleFrom_eq_of_none none, settleFrom_eq_of_none none]
  | case2 pending visited tentative node distance isNearest shorter isTarget =>
      rw [settleFrom_eq_of_target isNearest isTarget,
        settleFrom_eq_of_target isNearest isTarget, alike.settle distinct,
        alike.settledAt distinct]
  | case3 pending visited tentative node distance isNearest shorter left next
      isOther later last goesOn inductionHypothesis =>
      have goesOnAlike :
          Search.settleFrom arcs target (pending.erase node)
              (visited ++ [node])
              (Search.settle arcs pending tentative node distance) =
            Search.settleFrom others target (pending.erase node)
              (visited ++ [node])
              (Search.settle arcs pending tentative node distance) :=
        inductionHypothesis (distinct.erase node)
      rw [settleFrom_eq_of_other isNearest isOther,
        settleFrom_eq_of_other isNearest isOther, goesOnAlike,
        alike.settle distinct, alike.settledAt distinct]

/-- A search of a graph finds the same along arcs that weigh alike. -/
theorem WeighAlike.searchAlong
    (alike : WeighAlike arcs others)
    (graph : Graph)
    (start : String)
    (target : Option String) :
    searchAlong arcs graph start target =
      searchAlong others graph start target := by
  have distinct : graph.nodeNames.Nodup := graph.nodes.distinct
  simp only [Search.searchAlong]
  rw [alike.settleFrom distinct]

end Settling

end GraphScript.Search
