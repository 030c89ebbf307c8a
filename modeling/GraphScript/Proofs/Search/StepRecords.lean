import GraphScript.Search.Run
import Mathlib.Data.List.Infix
import Mathlib.Data.List.Nodup

namespace GraphScript.Search

/-!
# Steps that replay visits

Every algorithm records a step before its first visit, one for each visit, and
one after the last. The steps of visits differ in their frontiers and distances,
but all of them list the nodes visited so far; so the order of the visits can be
read off the steps, and they off the order.
-/

/-- The steps of a run from a node replay the visits of some nodes in order. -/
structure Records
    (start : String)
    (order : List String)
    (steps : List Step) :
    Prop where
  distinct : order.Nodup
  numbers : steps.map Step.number = List.range (order.length + 2)
  currents : steps.map Step.current = some start :: order.map some ++ [none]
  visits : steps.map Step.visited = order.inits ++ [order]
  begins :
    ∃ first,
      steps.head? = some first ∧
      first.frontier = [start] ∧
      first.colors.entries = [(start, .yellow)]
  ends : ∃ last, steps.getLast? = some last ∧ last.frontier = []

namespace Records

variable {start : String} {order : List String} {steps : List Step}

theorem length_steps
    (records : Records start order steps) :
    steps.length = order.length + 2 := by
  have numbers := congrArg List.length records.numbers
  rwa [List.length_map, List.length_range] at numbers

theorem current_last
    (records : Records start order steps)
    {last : Step}
    (isLast : steps[order.length + 1]? = some last) :
    last.current = none := by
  have currents := congrArg (·[order.length + 1]?) records.currents
  simpa [isLast] using currents

end Records

/--
Each of some steps visits one more node, after others that were visited before.

The last argument lists the nodes that have been visited in the end.
-/
inductive Replays :
    List String → List Step → List String → Prop
  | done
      (visited : List String) :
      Replays visited [] visited
  | visit
      {visited final : List String}
      {step : Step}
      {rest : List Step}
      {node : String}
      (unvisited : node ∉ visited)
      (isCurrent : step.current = some node)
      (nowVisited : step.visited = visited ++ [node])
      (isNumber : step.number = (visited ++ [node]).length)
      (later : Replays (visited ++ [node]) rest final) :
      Replays visited (step :: rest) final

namespace Replays

variable {visited final : List String} {steps : List Step}

theorem nodup
    (replays : Replays visited steps final)
    (distinct : visited.Nodup) :
    final.Nodup := by
  induction replays with
  | done =>
      exact distinct
  | visit unvisited _ _ _ _ inductionHypothesis =>
      apply inductionHypothesis
      rw [← List.concat_eq_append]
      exact distinct.concat unvisited

/-- The steps name the nodes in order, with those before each one and itself. -/
theorem exists_order
    (replays : Replays visited steps final) :
    ∃ order,
      final = visited ++ order ∧
      steps.map Step.number = List.range' (visited.length + 1) order.length ∧
      steps.map Step.current = order.map some ∧
      visited :: steps.map Step.visited =
        order.inits.map fun earlier => visited ++ earlier := by
  induction replays with
  | done visited =>
      exact ⟨[], by simp, rfl, rfl, by simp⟩
  | @visit visited final step rest node _ isCurrent nowVisited isNumber _
      inductionHypothesis =>
      obtain ⟨order, isFinal, numbers, currents, visits⟩ := inductionHypothesis
      refine ⟨node :: order, ?_, ?_, ?_, ?_⟩
      · rw [isFinal, List.append_assoc, List.singleton_append]
      · rw [List.map_cons, numbers, isNumber, List.length_append,
          List.length_singleton, List.length_cons, List.range'_succ]
      · rw [List.map_cons, currents, isCurrent, List.map_cons]
      · rw [List.map_cons, nowVisited, visits, List.inits_cons, List.map_cons,
          List.map_map, List.append_nil]
        congr 2
        funext earlier
        simp

/-- With a step before and one after them, such steps make up a record. -/
theorem records
    {order : List String}
    (replays : Replays [] steps order)
    (description lastDescription start : String)
    (path : List String)
    (distances lastDistances : Option (NameMap (Option Float))) :
    Records start order
      (.first description start distances :: steps ++
        [.last lastDescription order path lastDistances]) := by
  obtain ⟨_, rfl, numbers, currents, visits⟩ := replays.exists_order
  refine
    { distinct := replays.nodup List.nodup_nil
      numbers := ?_
      currents := ?_
      visits := ?_
      begins := ⟨_, rfl, rfl, rfl⟩
      ends := ⟨_, List.getLast?_concat, rfl⟩ }
  · rw [List.map_append, List.map_cons, numbers, List.range_succ,
      List.range_succ_eq_map]
    simp [Step.first, Step.last, List.range'_eq_map_range, Nat.add_comm]
  · rw [List.map_append, List.map_cons, currents]
    rfl
  · rw [List.map_append, List.map_cons]
    change ([] :: steps.map Step.visited) ++ _ = _
    rw [visits]
    simp [Step.last]

end Replays

end GraphScript.Search
