import GraphScript.Proofs.NameMap
import GraphScript.Proofs.Search.Connection
import GraphScript.Proofs.Search.StepRecords
import Mathlib.Data.List.Permutation

namespace GraphScript.Search

/-!
# The steps of traversals

A step records what a traversal has visited and what is left in its frontier. A
queue holds each node once and none that was visited, so the next step is about
its head. A stack holds nodes several times and after their visits, so the next
step is about the last of its nodes that has not been visited.
-/

/-! ## The upcoming node -/

namespace Discipline

/-- The node that is visited next, if any. -/
def upcoming? :
    Discipline →
    List String →
    List String →
    Option String
  | .queue, _, frontier =>
      frontier.head?
  | .stack, visited, frontier =>
      (frontier.filter fun node => node ∉ visited).getLast?

/-- A queue holds no node twice, and none that was visited. -/
def Tidy
    (discipline : Discipline)
    (visited frontier : List String) :
    Prop :=
  discipline = .queue → (visited ++ frontier).Nodup

variable
  {discipline : Discipline}
  {visited frontier rest : List String}
  {node : String}

/-- A queue gives the node in front. -/
theorem eq_cons_of_next?_queue
    (taken : Discipline.queue.next? frontier = some (node, rest)) :
    frontier = node :: rest := by
  cases frontier with
  | nil =>
      cases taken
  | cons first others =>
      cases taken
      rfl

/-- A stack gives the node on top. -/
theorem eq_append_of_next?_stack
    (taken : Discipline.stack.next? frontier = some (node, rest)) :
    frontier = rest ++ [node] := by
  rw [← List.reverse_inj, reverse_of_next?_stack taken]
  simp

/-- Where nothing waits, nothing comes up. -/
theorem upcoming?_of_none
    (none : discipline.next? frontier = none) :
    discipline.upcoming? visited frontier = Option.none := by
  rw [next?_eq_none_iff.mp none]
  cases discipline <;> rfl

/-- A queue never gives a node that was visited, and a stack passes over it. -/
theorem upcoming?_of_visited
    (tidy : discipline.Tidy visited frontier)
    (taken : discipline.next? frontier = some (node, rest))
    (isVisited : node ∈ visited) :
    discipline.upcoming? visited frontier =
      discipline.upcoming? visited rest := by
  cases discipline with
  | queue =>
      have distinct := tidy rfl
      rw [eq_cons_of_next?_queue taken] at distinct
      exact absurd rfl
        ((List.nodup_append.mp distinct).2.2 node isVisited node
          List.mem_cons_self)
  | stack =>
      rw [eq_append_of_next?_stack taken, upcoming?, upcoming?,
        List.filter_append]
      simp [isVisited]

/-- A node that is given and was not visited is the one that comes up. -/
theorem upcoming?_of_unvisited
    (taken : discipline.next? frontier = some (node, rest))
    (unvisited : node ∉ visited) :
    discipline.upcoming? visited frontier = some node := by
  cases discipline with
  | queue =>
      rw [eq_cons_of_next?_queue taken]
      rfl
  | stack =>
      rw [eq_append_of_next?_stack taken, upcoming?, List.filter_append]
      simp [unvisited]

/-- When no node comes up any more, the frontier has only visited ones. -/
theorem subset_of_upcoming?_eq_none
    (none : discipline.upcoming? visited frontier = none) :
    frontier ⊆ visited := by
  cases discipline with
  | queue =>
      rw [List.head?_eq_none_iff.mp none]
      exact List.nil_subset visited
  | stack =>
      rw [upcoming?, List.getLast?_eq_none_iff, List.filter_eq_nil_iff] at none
      intro node waits
      simpa using none node waits

namespace Tidy

/-- A queue stays tidy when a node is taken from it. -/
theorem of_next?
    (tidy : discipline.Tidy visited frontier)
    (taken : discipline.next? frontier = some (node, rest)) :
    discipline.Tidy visited rest := by
  rintro rfl
  have distinct := tidy rfl
  rw [eq_cons_of_next?_queue taken] at distinct
  exact distinct.sublist
    (List.Sublist.append (List.Sublist.refl visited) (List.sublist_cons_self _ _))

/-- A queue stays tidy when a node is visited and its successors are added. -/
theorem extend
    (tidy : discipline.Tidy visited frontier)
    (taken : discipline.next? frontier = some (node, rest))
    (successors : List String) :
    discipline.Tidy (visited ++ [node])
      (discipline.extend (visited ++ [node]) rest successors) := by
  rintro rfl
  have distinct := tidy rfl
  rw [eq_cons_of_next?_queue taken, List.append_cons] at distinct
  exact nodup_append_foldl_enqueue distinct

end Tidy

/-- A step is about the node that comes up after the step before. -/
def Precedes
    (discipline : Discipline)
    (before after : Step) :
    Prop :=
  after.current = discipline.upcoming? before.visited before.frontier

end Discipline

/-! ## Colours -/

namespace Step

/-- The colours of a step tell which nodes are current, visited and waiting. -/
structure ColoredByRole
    (step : Step) :
    Prop where
  red :
    ∀ node, step.colors.get? node = some .red ↔ step.current = some node
  green :
    ∀ node,
      step.colors.get? node = some .green ↔
        node ∈ step.visited ∧ step.current ≠ some node
  yellow :
    ∀ node,
      step.colors.get? node = some .yellow ↔
        node ∈ step.frontier ∧ node ∉ step.visited
  notBlue : ∀ node, step.colors.get? node ≠ some .blue

end Step

/--
Waiting nodes are yellow, the current one is red, the visited ones are green, and
all others have no color.
-/
theorem Color.get?_assign
    (visited waiting : List String)
    (current : Option String)
    (node : String) :
    (Color.assign visited current waiting).get? node =
      if node ∈ waiting ∧ node ∉ visited then
        some .yellow
      else if current = some node then
        some .red
      else if node ∈ visited then
        some .green
      else
        none := by
  have isGreen :
      (NameMap.ofList (visited.map fun other => (other, Color.green))).get?
          node =
        if node ∈ visited then some .green else none :=
    NameMap.get?_insertAll_const visited Color.green .empty node
  unfold Color.assign
  rw [NameMap.get?_insertAll_const]
  cases current with
  | none =>
      simp [isGreen]
  | some other =>
      simp [NameMap.get?_insert, isGreen]

/-- Colours that are assigned to a step tell the roles of its nodes. -/
theorem Step.coloredByRole_of_assign
    {step : Step}
    (assigned :
      step.colors = Color.assign step.visited step.current step.frontier)
    (currentVisited : ∀ node, step.current = some node → node ∈ step.visited) :
    step.ColoredByRole := by
  have colors :
      ∀ node, step.colors.get? node =
        if node ∈ step.frontier ∧ node ∉ step.visited then
          some .yellow
        else if step.current = some node then
          some .red
        else if node ∈ step.visited then
          some .green
        else
          none :=
    fun node => assigned ▸ Color.get?_assign _ _ _ node
  refine ⟨?_, ?_, ?_, ?_⟩ <;> intro node <;> rw [colors node] <;>
    have := currentVisited node <;> grind

/-! ## The visits of a traversal -/

section Visiting

variable
  {Label : Type}
  {arcs : List (Arc Label)}
  {discipline : Discipline}
  {visited frontier rest : List String}
  {node : String}

/-- The node that comes up is visited next. -/
theorem head?_visitsFrom
    (tidy : discipline.Tidy visited frontier) :
    (visitsFrom arcs discipline visited frontier).head? =
      discipline.upcoming? visited frontier := by
  induction visited, frontier using exploreFrom.induct arcs discipline with
  | case1 visited frontier none =>
      rw [visitsFrom_of_none none, Discipline.upcoming?_of_none none,
        List.head?_nil]
  | case2 visited frontier node rest taken shorter isVisited
      inductionHypothesis =>
      rw [visitsFrom_of_visited taken isVisited,
        Discipline.upcoming?_of_visited tidy taken isVisited]
      exact inductionHypothesis (tidy.of_next? taken)
  | case3 visited frontier node rest taken shorter unvisited nowVisited
      nowWaiting inductionHypothesis =>
      rw [visitsFrom_of_unvisited taken unvisited,
        Discipline.upcoming?_of_unvisited taken unvisited, List.head?_cons]

/-- The step of a visit. -/
def Visit.step
    (discipline : Discipline)
    (visit : Visit) :
    Step :=
  .visit s!"Visit node {visit.node}, add neighbors to {discipline.text}"
    visit.node visit.visited visit.frontier none

/-- The steps of the visits that go on from a frontier. -/
def stepsFrom
    (arcs : List (Arc Label))
    (discipline : Discipline)
    (visited frontier : List String) :
    List Step :=
  (exploreFrom arcs discipline visited frontier).map (Visit.step discipline)

/-- Where nothing waits, there is no further step. -/
theorem stepsFrom_of_none
    (none : discipline.next? frontier = none) :
    stepsFrom arcs discipline visited frontier = [] := by
  rw [stepsFrom, exploreFrom_of_none none, List.map_nil]

/-- A node that was visited before makes no step. -/
theorem stepsFrom_of_visited
    (taken : discipline.next? frontier = some (node, rest))
    (isVisited : node ∈ visited) :
    stepsFrom arcs discipline visited frontier =
      stepsFrom arcs discipline visited rest := by
  rw [stepsFrom, exploreFrom_of_visited taken isVisited, stepsFrom]

/-- The visit of a node, which adds its successors to the frontier. -/
def visitOf
    (arcs : List (Arc Label))
    (discipline : Discipline)
    (visited rest : List String)
    (node : String) :
    Visit :=
  { node
    visited := visited ++ [node]
    frontier :=
      discipline.extend (visited ++ [node]) rest (Arc.successors arcs node) }

/-- A node that is visited makes one step, and the others follow. -/
theorem stepsFrom_of_unvisited
    (taken : discipline.next? frontier = some (node, rest))
    (unvisited : node ∉ visited) :
    stepsFrom arcs discipline visited frontier =
      (visitOf arcs discipline visited rest node).step discipline ::
        stepsFrom arcs discipline
          (visitOf arcs discipline visited rest node).visited
          (visitOf arcs discipline visited rest node).frontier := by
  rw [stepsFrom, exploreFrom_of_unvisited taken unvisited, List.map_cons,
    stepsFrom]
  rfl

/-- The steps of a traversal replay its visits. -/
theorem replays_stepsFrom :
    Replays visited (stepsFrom arcs discipline visited frontier)
      (visited ++ visitsFrom arcs discipline visited frontier) := by
  induction visited, frontier using exploreFrom.induct arcs discipline with
  | case1 visited frontier none =>
      rw [stepsFrom_of_none none, visitsFrom_of_none none, List.append_nil]
      exact .done visited
  | case2 visited frontier node rest taken shorter isVisited
      inductionHypothesis =>
      rw [stepsFrom_of_visited taken isVisited,
        visitsFrom_of_visited taken isVisited]
      exact inductionHypothesis
  | case3 visited frontier node rest taken shorter unvisited nowVisited
      nowWaiting inductionHypothesis =>
      rw [stepsFrom_of_unvisited taken unvisited,
        visitsFrom_of_unvisited taken unvisited,
        List.append_cons visited node (visitsFrom _ _ _ _)]
      exact .visit unvisited rfl rfl rfl inductionHypothesis

/-- Every step keeps its frontier tidy and shows the roles of its nodes. -/
theorem forall_stepsFrom
    (tidy : discipline.Tidy visited frontier) :
    ∀ step ∈ stepsFrom arcs discipline visited frontier,
      discipline.Tidy step.visited step.frontier ∧ step.ColoredByRole := by
  induction visited, frontier using exploreFrom.induct arcs discipline with
  | case1 visited frontier none =>
      rw [stepsFrom_of_none none]
      exact List.forall_mem_nil _
  | case2 visited frontier node rest taken shorter isVisited
      inductionHypothesis =>
      rw [stepsFrom_of_visited taken isVisited]
      exact inductionHypothesis (tidy.of_next? taken)
  | case3 visited frontier node rest taken shorter unvisited nowVisited
      nowWaiting inductionHypothesis =>
      rw [stepsFrom_of_unvisited taken unvisited, List.forall_mem_cons]
      have nowTidy := tidy.extend taken (Arc.successors arcs node)
      refine ⟨⟨nowTidy, Step.coloredByRole_of_assign rfl ?_⟩,
        inductionHypothesis nowTidy⟩
      rintro _ ⟨⟩
      exact List.mem_append_right _ (List.mem_singleton_self node)

variable {last : Step}

/-- The first of the steps that go on is about the upcoming node. -/
theorem precedes_head_stepsFrom
    (first : Step)
    (isLast : last.current = none)
    (tidy : discipline.Tidy first.visited first.frontier) :
    ∀ step ∈
        (stepsFrom arcs discipline first.visited first.frontier ++
          [last]).head?,
      discipline.Precedes first step := by
  intro step isHead
  have upcoming :
      (visitsFrom arcs discipline first.visited first.frontier).head? =
        discipline.upcoming? first.visited first.frontier :=
    head?_visitsFrom tidy
  rw [Discipline.Precedes, ← upcoming, visitsFrom]
  rw [stepsFrom] at isHead
  cases visits :
      exploreFrom arcs discipline first.visited first.frontier with
  | nil =>
      rw [visits] at isHead
      cases isHead
      exact isLast
  | cons visit later =>
      rw [visits] at isHead
      cases isHead
      rfl

/-- Every step after the first is about the node that comes up before it. -/
theorem isChain_stepsFrom
    (isLast : last.current = none)
    (tidy : discipline.Tidy visited frontier) :
    (stepsFrom arcs discipline visited frontier ++ [last]).IsChain
      discipline.Precedes := by
  induction visited, frontier using exploreFrom.induct arcs discipline with
  | case1 visited frontier none =>
      rw [stepsFrom_of_none none]
      exact List.isChain_singleton last
  | case2 visited frontier node rest taken shorter isVisited
      inductionHypothesis =>
      rw [stepsFrom_of_visited taken isVisited]
      exact inductionHypothesis (tidy.of_next? taken)
  | case3 visited frontier node rest taken shorter unvisited nowVisited
      nowWaiting inductionHypothesis =>
      rw [stepsFrom_of_unvisited taken unvisited, List.cons_append,
        List.isChain_cons]
      have nowTidy := tidy.extend taken (Arc.successors arcs node)
      exact
        ⟨precedes_head_stepsFrom
            ((visitOf arcs discipline visited rest node).step discipline)
            isLast nowTidy,
          inductionHypothesis nowTidy⟩

end Visiting

/-! ## The steps of a run -/

/--
The steps of a traversal are a first one, one for each visit, and a last one with
all of them.
-/
theorem steps_of_traverse
    {discipline : Discipline}
    {graph : Graph}
    {start : String}
    {run : Run}
    (runs : traverse discipline graph start = .ok run) :
    ∃ description lastDescription,
      run.steps =
        .first description start none ::
            stepsFrom graph.arcs discipline [] [start] ++
          [.last lastDescription (visitOrder graph.arcs discipline start) []
            none] := by
  unfold traverse at runs
  split at runs
  · cases runs
  · split at runs
    · cases runs
    · cases runs
      exact ⟨_, _, rfl⟩

/-- When the last node is visited, no other one is left in the frontier. -/
theorem Records.frontier_subset_visited
    {discipline : Discipline}
    {start : String}
    {order : List String}
    {steps : List Step}
    {step : Step}
    (records : Records start order steps)
    (chain : steps.IsChain discipline.Precedes)
    (isStep : steps[order.length]? = some step) :
    step.frontier ⊆ step.visited := by
  have goesOn : order.length + 1 < steps.length := by
    rw [records.length_steps]
    exact Nat.lt_succ_self _
  obtain ⟨_, rfl⟩ := List.getElem?_eq_some_iff.mp isStep
  have precedes := List.isChain_iff_getElem.mp chain order.length goesOn
  have isNone := records.current_last (List.getElem?_eq_getElem goesOn)
  exact Discipline.subset_of_upcoming?_eq_none (precedes.symm.trans isNone)

/--
The steps of a traversal replay it.

The colours of every step but the first tell the roles of its nodes, and every
step is about the node that comes up after the step before. With a queue, that
is the head of a frontier without visited nodes or repetitions.
-/
theorem traverse_steps_replay_visits
    (discipline : Discipline)
    (graph : Graph)
    (start : String)
    (startIsNode : graph.hasNode start = true) :
    ∃ run order,
      traverse discipline graph start = .ok run ∧
      run.finding = .traversal order ∧
      Records start order run.steps ∧
      (∀ step ∈ run.steps.tail, step.ColoredByRole) ∧
      run.steps.IsChain discipline.Precedes ∧
      (discipline = .queue →
        ∀ step ∈ run.steps,
          step.frontier.Nodup ∧ step.frontier.Disjoint step.visited) ∧
      ∀ step,
        run.steps[order.length]? = some step → step.frontier ⊆ step.visited := by
  obtain ⟨run, runs, finds⟩ := traverse_of_hasNode discipline startIsNode
  obtain ⟨description, lastDescription, steps⟩ := steps_of_traverse runs
  have atStart : discipline.Tidy [] [start] :=
    fun _ => List.nodup_singleton start
  have records :
      Records start (visitOrder graph.arcs discipline start) run.steps := by
    rw [steps]
    exact replays_stepsFrom.records description lastDescription start [] none
      none
  have chain : run.steps.IsChain discipline.Precedes := by
    rw [steps, List.cons_append, List.isChain_cons]
    exact
      ⟨precedes_head_stepsFrom (.first description start none) rfl atStart,
        isChain_stepsFrom rfl atStart⟩
  refine ⟨run, _, runs, finds, records, ?_, chain, ?_, ?_⟩
  · rw [steps, List.cons_append, List.tail_cons, List.forall_mem_append,
      List.forall_mem_singleton]
    exact
      ⟨fun step isStep => (forall_stepsFrom atStart step isStep).2,
        Step.coloredByRole_of_assign rfl nofun⟩
  · rintro rfl
    have tidy :
        ∀ step ∈ run.steps,
          (step.visited ++ step.frontier).Nodup := by
      rw [steps, List.cons_append, List.forall_mem_cons,
        List.forall_mem_append, List.forall_mem_singleton]
      refine
        ⟨atStart rfl,
          fun step isStep => (forall_stepsFrom atStart step isStep).1 rfl, ?_⟩
      simpa [Step.last] using records.distinct
    intro step isStep
    have distinct := tidy step isStep
    exact ⟨distinct.of_append_right,
      (List.disjoint_of_nodup_append distinct).symm⟩
  · intro step isStep
    exact records.frontier_subset_visited chain isStep

/-- On the stack, nodes lie several times and after their visits. -/
theorem traverse_steps_replay_visits_of_cycle :
    loopedCycle.hasNode "a" = true ∧
      ∃ run,
        traverse .stack loopedCycle "a" = .ok run ∧
        Records "a" ["a", "c", "b", "d"] run.steps ∧
        run.steps.IsChain Discipline.stack.Precedes ∧
        run.steps.map Step.frontier =
          [["a"], ["b", "b", "c"], ["b", "b", "b"], ["b", "b", "d"],
            ["b", "b"], []] := by
  have startIsNode : loopedCycle.hasNode "a" = true := by decide
  have isOrder :
      visitOrder loopedCycle.arcs .stack "a" = ["a", "c", "b", "d"] := by
    cbv
  have frontiers :
      (stepsFrom loopedCycle.arcs .stack [] ["a"]).map Step.frontier =
        [["b", "b", "c"], ["b", "b", "b"], ["b", "b", "d"], ["b", "b"]] := by
    cbv
  obtain ⟨run, order, runs, finds, records, _, chain, _⟩ :=
    traverse_steps_replay_visits .stack loopedCycle "a" startIsNode
  cases (finding_of_traverse runs).symm.trans finds
  rw [isOrder] at records
  obtain ⟨_, _, steps⟩ := steps_of_traverse runs
  refine ⟨startIsNode, run, runs, records, chain, ?_⟩
  rw [steps, List.map_append, List.map_cons, frontiers]
  rfl

end GraphScript.Search
