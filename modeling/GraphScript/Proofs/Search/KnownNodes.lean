import GraphScript.Proofs.Evaluation.ResolvedArguments
import GraphScript.Proofs.Search.Walks
import GraphScript.Search.Commands

namespace GraphScript

/-!
# Searches find their nodes

A search can fail because its start, its target or its graph does not exist. The
commands take all three from resolved arguments, which stand for what the model
has, or take the first node of a graph. A script therefore cannot bring a search
to fail in this way.
-/

/-- A node with attributes is a node of the graph. -/
theorem Graph.hasNode_of_get?
    {graph : Graph}
    {node : String}
    {attributes : Attributes}
    (held : graph.nodes.get? node = some attributes) :
    graph.hasNode node = true := by
  simp [hasNode, NameMap.contains, held]

namespace Search

/-- Whether a search fails because a node or a graph does not exist. -/
def Failure.isMissing :
    Failure →
    Bool
  | .startNotFound _ => true
  | .targetNotFound _ => true
  | .unknownGraph _ => true
  | .emptyGraph => false
  | .tooFewNodes .. => false
  | .tooManyNodes .. => false
  | .negativeWeight .. => false
  | .nonNumericWeight .. => false
  | .requiresDirected _ => false
  | .requiresUndirected _ => false
  | .requiresWeighted _ => false
  | .notConnected _ => false
  | .unknownAlgorithm _ => false
  | .missingGraph => false
  | .badArgument .. => false

/-- Whether nothing that a computation looks for is missing. -/
abbrev FindsAll
    {α : Type}
    (computed : Except Failure α) :
    Prop :=
  FailsOnly (·.isMissing = false) computed

/-! ## Algorithms -/

namespace Requirements

variable (requirements : Requirements)

/-- A graph of a wrong size is not reported as missing. -/
theorem checkSize_findsAll
    (found : Nat) :
    FindsAll (requirements.checkSize found) := by
  unfold checkSize
  split
  · exact .error rfl
  · split
    · exact .error rfl
    · split
      · split
        · exact .error rfl
        · exact .ok ()
      · exact .ok ()

/-- A graph of the wrong direction is not reported as missing. -/
theorem checkDirection_findsAll
    (directed : Bool) :
    FindsAll (requirements.checkDirection directed) := by
  unfold checkDirection
  split
  · exact .error rfl
  · exact .error rfl
  · exact .ok ()

/-- No requirement that is not met is reported as something missing. -/
theorem check_findsAll
    (graph : Graph) :
    FindsAll (requirements.check graph) := by
  apply FailsOnly.bind (requirements.checkSize_findsAll _)
  intro _
  apply FailsOnly.bind (requirements.checkDirection_findsAll _)
  intro _
  cases requirements.weighted && !graph.isWeighted with
  | true =>
      exact .error rfl
  | false =>
      cases requirements.connected && !graph.isConnected with
      | true => exact .error rfl
      | false => exact .ok ()

end Requirements

section Weights

variable {Sum : Type} [Weight Sum]

/-- A weight that is refused is not reported as something missing. -/
theorem weightedArcs_findsAll
    (graph : Graph) :
    FindsAll (weightedArcs graph : Except Failure (List (Arc Sum))) := by
  apply FailsOnly.map
  apply FailsOnly.mapM
  intro edge
  apply FailsOnly.map
  unfold weightOf
  split
  · exact .ok _
  · split
    · exact .ok _
    · exact .error rfl
  · exact .error rfl

/-- A search for shortest paths between nodes of its graph finds them. -/
theorem shortestPaths_findsAll
    {graph : Graph}
    {start : String}
    {target : Option String}
    (startPresent : graph.hasNode start = true)
    (targetPresent : ∀ node, target = some node → graph.hasNode node = true) :
    FindsAll
      (shortestPaths graph start target : Except Failure (ShortestPaths Sum)) := by
  unfold shortestPaths
  split
  · exact .error rfl
  · rw [Graph.filter_not_hasNode targetPresent]
    simp only [startPresent, Bool.not_true, Bool.false_eq_true, if_false]
    exact (weightedArcs_findsAll graph).map _

end Weights

/-- A traversal from a node of its graph misses nothing. -/
theorem traverse_findsAll
    (discipline : Discipline)
    {graph : Graph}
    {start : String}
    (startPresent : graph.hasNode start = true) :
    FindsAll (traverse discipline graph start) := by
  unfold traverse
  split
  · exact .error rfl
  · simp only [startPresent, Bool.not_true, Bool.false_eq_true, if_false]
    exact .ok _

/-- An algorithm that is run between nodes of its graph finds them. -/
theorem Algorithm.run_findsAll
    (algorithm : Algorithm)
    {graph : Graph}
    {start : String}
    {target : Option String}
    (startPresent : graph.hasNode start = true)
    (targetPresent : ∀ node, target = some node → graph.hasNode node = true) :
    FindsAll (algorithm.run graph start target) := by
  apply FailsOnly.bind (algorithm.requirements.check_findsAll graph)
  intro _
  cases algorithm with
  | breadthFirst =>
      exact traverse_findsAll .queue startPresent
  | depthFirst =>
      exact traverse_findsAll .stack startPresent
  | dijkstra =>
      exact (shortestPaths_findsAll startPresent targetPresent).map _

/-! ## Commands -/

section Commands

variable
  {model : Model}
  {arguments : List ResolvedArgument}

/-- What is found under some keys is one of the arguments. -/
theorem mem_of_argument?
    {keys : List String}
    {argument : ResolvedArgument}
    (found : argument? arguments keys = some argument) :
    argument ∈ arguments :=
  List.mem_of_find?_eq_some found

/-- Arguments that name no graph are refused as such, without looking for one. -/
theorem address_findsAll
    (arguments : List ResolvedArgument) :
    FindsAll (address arguments) := by
  unfold address
  split
  · split
    · exact .ok _
    · exact .error rfl
  · split
    · split
      · exact .ok _
      · exact .error rfl
    · exact .error rfl

/-- The graph that arguments name exists, and has the start that they name. -/
theorem exists_of_address
    (exist : ∀ argument ∈ arguments, argument.value.ExistsIn model)
    {id : String}
    {named : Option String}
    (isAddress : address arguments = .ok (id, named)) :
    ∃ graph,
      model.get? id = some graph ∧
        ∀ node, named = some node → graph.hasNode node = true := by
  unfold address at isAddress
  split at isAddress
  · next argument found =>
      have present := exist argument (mem_of_argument? found)
      split at isAddress
      · next owner name attributes isNode =>
          cases isAddress
          rw [isNode] at present
          obtain ⟨graph, isGraph, held⟩ := present
          refine ⟨graph, isGraph, ?_⟩
          rintro node ⟨⟩
          exact Graph.hasNode_of_get? held
      · cases isAddress
  · split at isAddress
    · next argument found =>
        have present := exist argument (mem_of_argument? found)
        split at isAddress
        · next isGraphId =>
            cases isAddress
            rw [isGraphId] at present
            obtain ⟨graph, isGraph⟩ := present
            exact ⟨graph, isGraph, by rintro node ⟨⟩⟩
        · cases isAddress
    · cases isAddress

/-- A graph without a first node is reported as empty, not as missing. -/
theorem startOf_findsAll
    (graph : Graph)
    (named : Option String) :
    FindsAll (startOf graph named) := by
  unfold startOf
  split
  · exact .ok _
  · exact .ok _
  · exact .error rfl

/-- The start is a node of the graph, be it named or the first one. -/
theorem hasNode_of_startOf
    {graph : Graph}
    {named : Option String}
    {start : String}
    (present : ∀ node, named = some node → graph.hasNode node = true)
    (isStart : startOf graph named = .ok start) :
    graph.hasNode start = true := by
  unfold startOf at isStart
  split at isStart
  · cases isStart
    exact present start rfl
  · next others isFirst =>
      cases isStart
      have member : start ∈ graph.nodeNames := by
        rw [isFirst]
        exact List.mem_cons_self
      obtain ⟨held, isHeld⟩ := NameMap.exists_of_mem_keys member
      exact Graph.hasNode_of_get? isHeld
  · cases isStart

/-- A target that cannot be used is reported as a bad argument, not as missing. -/
theorem targetOf_findsAll
    (graph : Graph)
    (arguments : List ResolvedArgument) :
    FindsAll (targetOf graph arguments) := by
  unfold targetOf
  split
  · exact .ok _
  · split
    · split
      · exact .ok _
      · exact .error rfl
    · exact .error rfl

/-- The target is a node of the graph, as only nodes of that graph are taken. -/
theorem hasNode_of_targetOf
    (exist : ∀ argument ∈ arguments, argument.value.ExistsIn model)
    {graph : Graph}
    (isGraph : model.get? graph.id = some graph)
    {target : Option String}
    (isTarget : targetOf graph arguments = .ok target) :
    ∀ node, target = some node → graph.hasNode node = true := by
  unfold targetOf at isTarget
  split at isTarget
  · cases isTarget
    rintro node ⟨⟩
  · next argument found =>
      have present := exist argument (mem_of_argument? found)
      split at isTarget
      · next owner name attributes isNode =>
          rw [isNode] at present
          obtain ⟨holder, isHolder, held⟩ := present
          split at isTarget
          · next sameGraph =>
              rw [sameGraph, isGraph] at isHolder
              cases isHolder
              cases isTarget
              rintro node ⟨⟩
              exact Graph.hasNode_of_get? held
          · cases isTarget
      · cases isTarget

/-- An algorithm that cannot be chosen is not reported as a missing node or graph. -/
theorem chooseAlgorithm_findsAll
    (arguments : List ResolvedArgument) :
    FindsAll (chooseAlgorithm arguments) := by
  unfold chooseAlgorithm
  split
  · split
    · split
      · split
        · exact .ok _
        · exact .error rfl
      · exact .error rfl
    · exact .error rfl
  · split
    · exact .ok _
    · exact .ok _

/-- A command of a search fails as the search does. -/
theorem commandOutcome_findsAll
    {outcome : Except Failure Run}
    (findsAll : FindsAll outcome)
    {failure : Failure}
    (failed : commandOutcome outcome = .error (.search failure)) :
    failure.isMissing = false := by
  cases outcome with
  | ok run =>
      cases failed
  | error earlier =>
      cases failed
      exact findsAll failure rfl

variable
  (named : model.NamedByKey)
  (exist : ∀ argument ∈ arguments, argument.value.ExistsIn model)

include named exist

/-- A search of what the arguments name finds the graph, the start and the target. -/
theorem runOn_findsAll
    (algorithm : Algorithm) :
    FindsAll (runOn algorithm model arguments) := by
  apply FailsOnly.bindOk (address_findsAll arguments)
  rintro ⟨id, named?⟩ isAddress
  obtain ⟨graph, isGraph, present⟩ := exists_of_address exist isAddress
  have isOwn : model.get? graph.id = some graph :=
    (named id graph isGraph).symm ▸ isGraph
  simp only [graphOf, isGraph]
  apply FailsOnly.bindOk (startOf_findsAll graph named?)
  intro start isStart
  have startPresent := hasNode_of_startOf present isStart
  have noTarget :
      ∀ node, (none : Option String) = some node →
        graph.hasNode node = true := by
    rintro node ⟨⟩
  cases algorithm with
  | breadthFirst =>
      exact Algorithm.run_findsAll _ startPresent noTarget
  | depthFirst =>
      exact Algorithm.run_findsAll _ startPresent noTarget
  | dijkstra =>
      apply FailsOnly.bindOk (targetOf_findsAll graph arguments)
      intro target isTarget
      exact Algorithm.run_findsAll _ startPresent
        (hasNode_of_targetOf exist isOwn isTarget)

end Commands

/-! ## Registries -/

variable {State : Type}

/-- Whether a handler is one that searches graphs. -/
inductive IsSearch :
    Handler State →
    Prop where
  | handler (algorithm : Algorithm) :
      IsSearch (handler algorithm)
  | animate :
      IsSearch animateHandler

/-- A handler that searches what exists finds it. -/
theorem IsSearch.findsAll
    {handler : Handler State}
    (isSearch : IsSearch handler)
    {model : Model}
    (named : model.NamedByKey)
    {arguments : List ResolvedArgument}
    (exist : ∀ argument ∈ arguments, argument.value.ExistsIn model)
    {state : State}
    {failure : Failure}
    (failed : (handler model arguments state).1 = .error (.search failure)) :
    failure.isMissing = false := by
  cases isSearch with
  | handler algorithm =>
      exact commandOutcome_findsAll (runOn_findsAll named exist algorithm)
        failed
  | animate =>
      refine commandOutcome_findsAll ?_ failed
      apply FailsOnly.bind (chooseAlgorithm_findsAll arguments)
      intro algorithm
      exact runOn_findsAll named exist algorithm

/-- Whether all handlers of a registry search graphs. -/
def OnlySearches
    (registry : Registry State) :
    Prop :=
  ∀ name handler, registry.get? name = some handler → IsSearch handler

namespace OnlySearches

variable {registry : Registry State}

/-- Registering a search leaves only searches registered. -/
theorem register
    (onlySearches : OnlySearches registry)
    (name : String)
    {handler : Handler State}
    (isSearch : IsSearch handler) :
    OnlySearches (registry.register name handler) := by
  intro other found isFound
  simp only [Registry.register, Registry.get?, NameMap.get?_insert]
    at isFound
  split at isFound
  · cases isFound
    exact isSearch
  · exact onlySearches other found isFound

/-- Registering the algorithms leaves only searches registered. -/
theorem registerAll
    (onlySearches : OnlySearches registry)
    (algorithms : List Algorithm) :
    OnlySearches (algorithms.foldl registerAlgorithm registry) := by
  induction algorithms generalizing registry with
  | nil =>
      exact onlySearches
  | cons algorithm rest inductionHypothesis =>
      apply inductionHypothesis
      exact (onlySearches.register _ (.handler algorithm)).register _
        (.handler algorithm)

end OnlySearches

/-- The registry holds only searches. -/
theorem onlySearches_registry :
    OnlySearches (registry : Registry State) := by
  have none : OnlySearches (Registry.empty : Registry State) := by
    rintro name handler ⟨⟩
  exact (none.registerAll Algorithm.all).register "animate" .animate

/--
Every call of an evaluation has arguments that its model knows, and a command
that is registered as a search does not fail for want of a node or a graph.
-/
theorem searches_find_their_nodes
    (registry : Registry State)
    (program : Program)
    (state : State) :
    Registry.ArgumentsExist
        (registry.recorded.evaluate program (state, [])).2.2 ∧
      ∀ command handler span failure,
        (Search.registry : Registry State).get? command = some handler →
        registry.get? command = some handler →
        (registry.evaluate program state).1 =
          .error (.commandFailed command span (.search failure)) →
        failure.isMissing = false := by
  obtain ⟨outcome, last, calls, evaluates⟩ :=
    registry.exists_evaluates program state
  constructor
  · rw [evaluates.evaluate_recorded]
    exact evaluates.argumentsExist
  · intro command handler span failure isBuiltin registered failed
    rw [evaluates.evaluate] at failed
    cases failed
    obtain ⟨called, model, arguments, before, isCalled, named, exist, answer⟩ :=
      evaluates.handler_failed
    rw [registered] at isCalled
    cases isCalled
    exact (onlySearches_registry command handler isBuiltin).findsAll named
      exist answer

/-- A search that starts from a variable, in a graph without weights. -/
theorem searches_find_their_nodes_of_variable :
    let name (text : String) : Identifier := ⟨text, default⟩
    let hub : VariableDeclaration :=
      ⟨.node, name "hub", .nodes [name "a"], default⟩
    let edge : Statement :=
      .edge ⟨name "hub", .forward, name "b", none, default⟩
    let argument (key node : String) : Argument :=
      ⟨name key, .assign, .path ⟨[name "g", name node], default⟩, default⟩
    let search : Command :=
      ⟨name "dijkstra", [argument "start" "hub", argument "target" "b"],
        default⟩
    let program : Program :=
      ⟨[hub], [⟨.directed, name "g", [.statement edge], default⟩], [search],
        default⟩
    let registry : Registry Unit := Search.registry
    let calls := (registry.recorded.evaluate program ((), [])).2.2
    calls.map (·.command) = ["dijkstra"] ∧
      Registry.ArgumentsExist calls ∧
      (registry.evaluate program ()).1 =
        .error
          (.commandFailed "dijkstra" default
            (.search (.requiresWeighted .dijkstra))) ∧
      (Failure.requiresWeighted .dijkstra).isMissing = false := by
  intro name hub edge argument search program registry calls
  have failed :
      (registry.evaluate program ()).1 =
        .error
          (.commandFailed "dijkstra" default
            (.search (.requiresWeighted .dijkstra))) :=
    rfl
  obtain ⟨exist, found⟩ := searches_find_their_nodes registry program ()
  refine ⟨rfl, exist, failed, ?_⟩
  exact found "dijkstra" (handler .dijkstra) default _ rfl rfl failed

end Search

end GraphScript
