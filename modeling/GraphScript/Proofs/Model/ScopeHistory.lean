import GraphScript.Proofs.Model.Scopes
import GraphScript.Proofs.NameMap

namespace GraphScript

/-!
# Histories of scopes

An environment can be given any sequence of declarations, openings and closings
of scopes, some of which fail. What its scopes hold can be read off the sequence:
each open scope has the variables that were declared while it was the innermost
one, and the program scope is below all the others and is never closed.
-/

namespace Environment

/-! ## Operations -/

/-- What can be done to the scopes of an environment. -/
inductive Operation where
  | declare
      (name : Identifier)
      (declaredType : VariableType)
      (value : Value)
  | enter (graph : String)
  | leave

/-- What an operation answers, and the environment that it leaves. -/
def perform
    (environment : Environment) :
    Operation →
    Except EvaluationError Unit × Environment
  | .declare name declaredType value =>
      match environment.declare name declaredType value with
      | .ok next => (.ok (), next)
      | .error error => (.error error, environment)
  | .enter graph =>
      (.ok (), environment.enter graph)
  | .leave =>
      (.ok (), environment.leave)

/-- The environment after some operations, whether they fail or not. -/
def after
    (environment : Environment)
    (operations : List Operation) :
    Environment :=
  operations.foldl
    (fun reached operation => (reached.perform operation).2)
    environment

@[simp] theorem after_nil
    (environment : Environment) :
    environment.after [] = environment :=
  rfl

@[simp] theorem after_cons
    (environment : Environment)
    (operation : Operation)
    (rest : List Operation) :
    environment.after (operation :: rest) =
      (environment.perform operation).2.after rest :=
  rfl

theorem after_append
    (environment : Environment)
    (first second : List Operation) :
    environment.after (first ++ second) =
      (environment.after first).after second :=
  List.foldl_append

/-- Whether an environment comes about by operations. -/
def Reachable
    (environment : Environment) :
    Prop :=
  ∃ history, empty.after history = environment

/-- The variable that an operation declares in the program scope. -/
def programVariable?
    (environment : Environment) :
    Operation →
    Option Variable
  | .declare name declaredType value =>
      match environment.inner, environment.declare name declaredType value with
      | [], .ok _ => some ⟨name.name, declaredType, value, name.span⟩
      | _, _ => none
  | .enter _ => none
  | .leave => none

/-- The variables that some operations declare in the program scope, in order. -/
def programVariables
    (environment : Environment) :
    List Operation →
    List Variable
  | [] =>
      []
  | operation :: rest =>
      (environment.programVariable? operation).toList ++
        (environment.perform operation).2.programVariables rest

namespace Operation

/-- Whether every scope that is opened is closed again, innermost first. -/
inductive Balanced :
    List Operation →
    Prop where
  | nil :
      Balanced []
  | declare
      {rest : List Operation}
      (name : Identifier)
      (declaredType : VariableType)
      (value : Value)
      (later : Balanced rest) :
      Balanced (.declare name declaredType value :: rest)
  | scope
      {inside rest : List Operation}
      (graph : String)
      (within : Balanced inside)
      (later : Balanced rest) :
      Balanced (.enter graph :: (inside ++ .leave :: rest))

end Operation

/-! ## Frames -/

/-- An open scope as a history tells it. The program scope has no graph. -/
structure Frame where
  graph : Option String
  /-- The variables in the order of their declarations. -/
  declared : List Variable

namespace Frame

/-- The variable that a scope has under a name. -/
def find?
    (frame : Frame)
    (name : String) :
    Option Variable :=
  frame.declared.find? (·.name = name)

/-- The scope with one more variable, if its name is new and its type is right. -/
def declare
    (frame : Frame)
    (added : Variable) :
    Frame :=
  if frame.find? added.name = none ∧
      added.value.type = added.declaredType then
    { frame with declared := frame.declared ++ [added] }
  else
    frame

/--
The open scopes after one more operation, with the innermost one first.

The last scope that is left is the program scope, and it is not closed.
-/
def step
    (frames : List Frame) :
    Operation →
    List Frame
  | .declare name declaredType value =>
      match frames with
      | innermost :: outer =>
          innermost.declare ⟨name.name, declaredType, value, name.span⟩ ::
            outer
      | [] =>
          []
  | .enter graph =>
      ⟨some graph, []⟩ :: frames
  | .leave =>
      match frames with
      | _ :: next :: outer => next :: outer
      | last => last

/-- The scopes that are open after a history that starts in the program scope. -/
def opened
    (history : List Operation) :
    List Frame :=
  history.foldl step [⟨none, []⟩]

/-- A scope without the keys under which it stores its variables. -/
def ofBindings
    (graph : Option String)
    (bindings : NameMap Variable) :
    Frame :=
  ⟨graph, bindings.values⟩

end Frame

/-- The open scopes of an environment, from the innermost outward. -/
def frames
    (environment : Environment) :
    List Frame :=
  environment.inner.map
      (fun scope => Frame.ofBindings (some scope.graph) scope.bindings) ++
    [Frame.ofBindings none environment.program]

/-- Every frame shows the variables of one scope. -/
theorem exists_bindings_of_frame
    {environment : Environment}
    {frame : Frame}
    (member : frame ∈ environment.frames) :
    ∃ graph bindings,
      bindings ∈ environment.tables ∧
        frame = Frame.ofBindings graph bindings := by
  rcases List.mem_append.1 member with isInner | isProgram
  · obtain ⟨scope, isScope, rfl⟩ := List.mem_map.1 isInner
    refine ⟨some scope.graph, scope.bindings, ?_, rfl⟩
    exact List.mem_append_left _ (List.mem_map.2 ⟨scope, isScope, rfl⟩)
  · rw [List.mem_singleton.1 isProgram]
    refine ⟨none, environment.program, ?_, rfl⟩
    exact List.mem_append_right _ (List.mem_singleton.2 rfl)

/-! ## What is stored -/

/-- Whether variables are stored under their names, with the types of their values. -/
structure Stored
    (bindings : NameMap Variable) :
    Prop where
  names : ∀ entry ∈ bindings.entries, entry.2.name = entry.1
  types :
    ∀ entry ∈ bindings.entries,
      entry.2.value.type = entry.2.declaredType

namespace Stored

variable
  {bindings : NameMap Variable}

theorem empty :
    Stored .empty := by
  constructor <;> intro entry member <;> cases member

/-- A new name is stored behind the others. -/
theorem insert
    (stored : Stored bindings)
    {added : Variable}
    (isNew : bindings.get? added.name = none)
    (sameType : added.value.type = added.declaredType) :
    Stored (bindings.insert added.name added) := by
  have entries :=
    NameMap.entries_insert_of_new (NameMap.get?_eq_none_iff.1 isNew) added
  constructor <;> intro entry member <;>
    rw [entries, List.mem_append, List.mem_singleton] at member
  · rcases member with earlier | rfl
    · exact stored.names entry earlier
    · rfl
  · rcases member with earlier | rfl
    · exact stored.types entry earlier
    · exact sameType

/-- The variables tell under which keys they are stored. -/
theorem entries_eq
    (stored : Stored bindings) :
    bindings.entries =
      bindings.values.map fun held => (held.name, held) := by
  unfold NameMap.values
  rw [List.map_map]
  apply Eq.symm
  apply (List.map_congr_left fun entry member => ?_).trans (List.map_id _)
  exact Prod.ext (stored.names entry member) rfl

/-- Variables that differ have different names. -/
theorem distinctNames
    (stored : Stored bindings) :
    (bindings.values.map (·.name)).Nodup := by
  have distinct := bindings.distinct
  rw [stored.entries_eq, List.map_map] at distinct
  exact distinct

/-- What is found under a key is the variable that has the key as its name. -/
theorem get?_eq
    (stored : Stored bindings)
    (graph : Option String)
    (name : String) :
    bindings.get? name = (Frame.ofBindings graph bindings).find? name := by
  have sameSearch
      (held : List Variable) :
      NameMap.find? (held.map fun each => (each.name, each)) name =
        held.find? (·.name = name) := by
    induction held with
    | nil =>
        rfl
    | cons first rest inductionHypothesis =>
        by_cases same : first.name = name <;>
          simp [NameMap.find?, same, inductionHypothesis]
  unfold NameMap.get?
  rw [stored.entries_eq]
  exact sameSearch bindings.values

/-- A name that is found belongs to the variable that is found. -/
theorem name_of_get?
    (stored : Stored bindings)
    {name : String}
    {found : Variable}
    (isFound : bindings.get? name = some found) :
    found.name = name := by
  rw [stored.get?_eq none] at isFound
  simpa using List.find?_some isFound

/-- Declaring a variable in a frame is storing it under its name. -/
theorem ofBindings_declare
    (stored : Stored bindings)
    (graph : Option String)
    (added : Variable) :
    (Frame.ofBindings graph bindings).declare added =
      if bindings.get? added.name = none ∧
          added.value.type = added.declaredType then
        Frame.ofBindings graph (bindings.insert added.name added)
      else
        Frame.ofBindings graph bindings := by
  rw [Frame.declare, ← stored.get?_eq]
  split
  · next accepted =>
      have isNew := NameMap.get?_eq_none_iff.1 accepted.1
      simp [Frame.ofBindings, NameMap.values,
        NameMap.entries_insert_of_new isNew]
  · rfl

end Stored

/-! ## Steps -/

/-- Whether all scopes store their variables under their names. -/
def Tidy
    (environment : Environment) :
    Prop :=
  ∀ bindings ∈ environment.tables, Stored bindings

/-- A declaration that is refused leaves the environment as it was. -/
theorem perform_declare
    (environment : Environment)
    (name : Identifier)
    (declaredType : VariableType)
    (value : Value) :
    (environment.perform (.declare name declaredType value)).2 =
      if environment.innermost.get? name.name = none ∧
          value.type = declaredType then
        environment.bind ⟨name.name, declaredType, value, name.span⟩
      else
        environment := by
  simp only [perform]
  split
  · next next declared =>
      obtain ⟨isNew, sameType, rfl⟩ := declare_eq_ok.1 declared
      rw [if_pos ⟨isNew, sameType⟩]
  · next error refused =>
      rw [if_neg]
      rintro ⟨isNew, sameType⟩
      have declared := declare_eq_ok.2 ⟨isNew, sameType, rfl⟩
      rw [refused] at declared
      cases declared

/-- An operation that fails changes nothing. -/
theorem perform_of_error
    {environment : Environment}
    {operation : Operation}
    {error : EvaluationError}
    (failed : (environment.perform operation).1 = .error error) :
    (environment.perform operation).2 = environment := by
  cases operation with
  | declare name declaredType value =>
      cases declared : environment.declare name declaredType value with
      | error earlier =>
          simp only [perform, declared]
      | ok next =>
          simp only [perform, declared] at failed
          cases failed
  | enter graph =>
      cases failed
  | leave =>
      cases failed

namespace Tidy

variable
  {environment : Environment}

theorem empty :
    Environment.empty.Tidy := by
  intro bindings member
  cases List.mem_singleton.1 member
  exact .empty

theorem innermost
    (tidy : environment.Tidy) :
    Stored environment.innermost := by
  apply tidy
  rcases environment with ⟨program, inner⟩
  cases inner <;> simp [Environment.innermost, tables]

/-- The variable that a name stands for has that name. -/
theorem name_of_get?
    (tidy : environment.Tidy)
    {name : String}
    {found : Variable}
    (isFound : environment.get? name = some found) :
    found.name = name := by
  obtain ⟨bindings, held, isFound⟩ := List.exists_of_findSome?_eq_some isFound
  exact (tidy bindings held).name_of_get? isFound

/-- A variable of the right type under a new name keeps all scopes in order. -/
theorem bind
    (tidy : environment.Tidy)
    {added : Variable}
    (isNew : environment.innermost.get? added.name = none)
    (sameType : added.value.type = added.declaredType) :
    (environment.bind added).Tidy := by
  have inserted := tidy.innermost.insert isNew sameType
  rcases environment with ⟨program, inner⟩
  intro bindings member
  cases inner with
  | nil =>
      cases List.mem_singleton.1 member
      exact inserted
  | cons scope outer =>
      rcases List.mem_cons.1 member with rfl | below
      · exact inserted
      · exact tidy bindings (List.mem_cons_of_mem _ below)

theorem declareVariable
    (tidy : environment.Tidy)
    {declaration : VariableDeclaration}
    {next : Environment}
    (declared : environment.declareVariable declaration = .ok next) :
    next.Tidy := by
  obtain ⟨isNew, value, _, sameType, rfl⟩ := declareVariable_eq_ok.1 declared
  exact tidy.bind isNew sameType

theorem enter
    (tidy : environment.Tidy)
    (graph : String) :
    (environment.enter graph).Tidy := by
  intro bindings member
  rcases List.mem_cons.1 member with rfl | below
  · exact .empty
  · exact tidy bindings below

/-- Every operation keeps all scopes in order. -/
theorem perform
    (tidy : environment.Tidy)
    (operation : Operation) :
    (environment.perform operation).2.Tidy := by
  cases operation with
  | declare name declaredType value =>
      rw [perform_declare]
      split
      · next accepted =>
          exact tidy.bind accepted.1 accepted.2
      · exact tidy
  | enter graph =>
      exact tidy.enter graph
  | leave =>
      intro bindings member
      apply tidy
      rcases environment with ⟨program, inner⟩
      cases inner with
      | nil => exact member
      | cons scope outer => exact List.mem_cons_of_mem _ member

theorem after
    (tidy : environment.Tidy)
    (operations : List Operation) :
    (environment.after operations).Tidy := by
  induction operations generalizing environment with
  | nil =>
      exact tidy
  | cons operation rest inductionHypothesis =>
      exact inductionHypothesis (tidy.perform operation)

theorem of_reachable
    (reachable : environment.Reachable) :
    environment.Tidy := by
  obtain ⟨history, rfl⟩ := reachable
  exact Tidy.empty.after history

end Tidy

/-- An operation does to the scopes what it does to their frames. -/
theorem frames_perform
    {environment : Environment}
    (tidy : environment.Tidy)
    (operation : Operation) :
    (environment.perform operation).2.frames =
      Frame.step environment.frames operation := by
  rcases environment with ⟨program, inner⟩
  cases operation with
  | enter graph =>
      rfl
  | leave =>
      rcases inner with _ | ⟨scope, _ | ⟨next, outer⟩⟩ <;> rfl
  | declare name declaredType value =>
      have declared
          (graph : Option String) :=
        tidy.innermost.ofBindings_declare graph
          ⟨name.name, declaredType, value, name.span⟩
      rw [perform_declare]
      cases inner with
      | nil =>
          refine Eq.trans ?_ (congrArg (· :: []) (declared none).symm)
          split <;> rfl
      | cons scope outer =>
          refine Eq.trans ?_ (congrArg (· :: _) (declared _).symm)
          split <;> rfl

/-- Some operations do to the scopes what they do to their frames. -/
theorem frames_after
    {environment : Environment}
    (tidy : environment.Tidy)
    (operations : List Operation) :
    (environment.after operations).frames =
      operations.foldl Frame.step environment.frames := by
  induction operations generalizing environment with
  | nil =>
      rfl
  | cons operation rest inductionHypothesis =>
      have later := inductionHypothesis (tidy.perform operation)
      rw [frames_perform tidy] at later
      exact later

/-- A name stands for what the innermost frame has that has the name. -/
theorem get?_eq_findSome?_frames
    {environment : Environment}
    (tidy : environment.Tidy)
    (name : String) :
    environment.get? name = environment.frames.findSome? (·.find? name) := by
  rcases environment with ⟨program, inner⟩
  unfold get?
  induction inner with
  | nil =>
      have onlyScope : Stored program := tidy.innermost
      simp [tables, frames, onlyScope.get?_eq none]
  | cons scope outer inductionHypothesis =>
      have innermost : Stored scope.bindings := tidy.innermost
      have below := inductionHypothesis (tidy.perform .leave)
      simp only [tables, frames, List.map_cons, List.cons_append,
        List.findSome?_cons] at below ⊢
      rw [below, innermost.get?_eq (some scope.graph)]

/-- What a balanced part of a history does stays inside the scopes that it opens. -/
theorem OpenedOn.after
    {environment outer : Environment}
    (opened : environment.OpenedOn outer)
    {operations : List Operation}
    (balanced : Operation.Balanced operations) :
    (environment.after operations).OpenedOn outer := by
  -- By the way in which the word is put together: the part inside a scope keeps
  -- that scope open on the environment in which it was opened.
  induction balanced generalizing environment outer with
  | nil =>
      exact opened
  | declare name declaredType value _ inductionHypothesis =>
      rw [after_cons, perform_declare]
      apply inductionHypothesis
      split
      · exact opened.bind _
      · exact opened
  | @scope inside rest graph _ _ within later =>
      have closed :
          ((environment.enter graph).after inside).leave = environment :=
        (within (.enter environment graph)).leave
      rw [after_cons, after_append, after_cons]
      simp only [perform, closed]
      exact later opened

/-- The program scope grows by the variables that are declared in it. -/
theorem entries_program_perform
    (environment : Environment)
    (operation : Operation) :
    (environment.perform operation).2.program.entries =
      environment.program.entries ++
        (environment.programVariable? operation).toList.map
          fun added => (added.name, added) := by
  cases operation with
  | enter graph =>
      simp [perform, programVariable?, enter]
  | leave =>
      simp [perform, programVariable?, leave]
  | declare name declaredType value =>
      rcases environment with ⟨program, inner⟩
      cases declared : declare ⟨program, inner⟩ name declaredType value with
      | error error =>
          simp [perform, programVariable?, declared]
      | ok next =>
          obtain ⟨isNew, _, rfl⟩ := declare_eq_ok.1 declared
          simp only [perform, programVariable?, declared]
          cases inner with
          | nil =>
              exact NameMap.entries_insert_of_new
                (NameMap.get?_eq_none_iff.1 isNew) _
          | cons scope outer =>
              simp [bind]

theorem entries_program_after
    (environment : Environment)
    (operations : List Operation) :
    (environment.after operations).program.entries =
      environment.program.entries ++
        (environment.programVariables operations).map
          fun added => (added.name, added) := by
  induction operations generalizing environment with
  | nil =>
      simp [after, programVariables]
  | cons operation rest inductionHypothesis =>
      have first := environment.entries_program_perform operation
      have later := inductionHypothesis (environment.perform operation).2
      rw [first, List.append_assoc, ← List.map_append] at later
      exact later

/-! ## Histories -/

/-- What the scopes of an environment are after a history of operations. -/
structure FollowsHistory
    (history : List Operation) :
    Prop where
  /-- The open scopes hold what was declared while each was the innermost one. -/
  scopes : (empty.after history).frames = Frame.opened history
  /-- The program scope, and no other scope, is at the bottom. -/
  bottom :
    ∃ upper program,
      Frame.opened history = upper ++ [program] ∧
        program.graph = none ∧
        ∀ frame ∈ upper, frame.graph ≠ none
  /-- A name stands for the variable of the innermost scope that declared it. -/
  lookup :
    ∀ name,
      (empty.after history).get? name =
        (Frame.opened history).findSome? (·.find? name)
  /-- A variable is stored under its name, with the type of its value. -/
  stored : ∀ bindings ∈ (empty.after history).tables, Stored bindings
  /-- No scope has two variables of one name. -/
  distinctNames :
    ∀ frame ∈ Frame.opened history, (frame.declared.map (·.name)).Nodup
  /-- An operation that fails changes nothing. -/
  failure :
    ∀ operation error,
      ((empty.after history).perform operation).1 = .error error →
        empty.after (history ++ [operation]) = empty.after history
  /-- Closing a scope restores what was there when it was opened. -/
  restored :
    ∀ graph inside,
      Operation.Balanced inside →
        empty.after (history ++ .enter graph :: (inside ++ [.leave])) =
          empty.after history
  /-- Closing a scope, or trying to, leaves the program scope alone. -/
  programStays :
    (empty.after (history ++ [.leave])).program =
      (empty.after history).program
  /-- The program scope has its successful declarations in their order. -/
  program :
    (empty.after history).program.entries =
      (empty.programVariables history).map fun added => (added.name, added)

/-- The scopes of an environment are what its history says, failures included. -/
theorem scopes_follow_their_history
    (history : List Operation) :
    FollowsHistory history := by
  have tidy := Tidy.empty.after history
  have scopes : (empty.after history).frames = Frame.opened history :=
    frames_after .empty history
  constructor
  case scopes =>
    exact scopes
  case bottom =>
    refine ⟨_, _, scopes.symm, rfl, fun frame member => ?_⟩
    obtain ⟨scope, _, rfl⟩ := List.mem_map.1 member
    simp [Frame.ofBindings]
  case lookup =>
    intro name
    rw [← scopes]
    exact get?_eq_findSome?_frames tidy name
  case stored =>
    exact tidy
  case distinctNames =>
    intro frame member
    rw [← scopes] at member
    obtain ⟨graph, bindings, held, rfl⟩ := exists_bindings_of_frame member
    exact (tidy bindings held).distinctNames
  case failure =>
    intro operation error failed
    rw [after_append]
    exact perform_of_error failed
  case restored =>
    intro graph inside balanced
    rw [after_append, after_cons, after_append]
    have opened :=
      (OpenedOn.enter (empty.after history) graph).after balanced
    exact opened.leave
  case programStays =>
    rw [after_append]
    rfl
  case program =>
    exact entries_program_after empty history

/-- A shadowed variable, two refused declarations, and a scope that is closed again. -/
theorem scopes_follow_their_history_of_shadowing :
    let declare (type : VariableType) (name node : String) : Operation :=
      .declare ⟨name, default⟩ type (.nodeReference node)
    let history :=
      [declare .node "a" "x", .enter "g", declare .node "a" "y",
        declare .node "a" "z", declare .edge "b" "x"]
    let inside :=
      [declare .node "b" "w", .enter "i", .leave, declare .node "a" "v"]
    Operation.Balanced inside ∧
      (Frame.opened history).map
          (fun frame => (frame.graph, frame.declared.map (·.value))) =
        [(some "g", [.nodeReference "y"]), (none, [.nodeReference "x"])] ∧
      (empty.after history).value? "a" = some (.nodeReference "y") ∧
      (empty.after (history ++ .enter "h" :: (inside ++ [.leave]))).value? "a" =
        some (.nodeReference "y") := by
  intro declare history inside
  have balanced : Operation.Balanced inside :=
    .declare _ _ _ (.scope "i" .nil (.declare _ _ _ .nil))
  have follows := scopes_follow_their_history history
  have shadowed :
      (empty.after history).value? "a" = some (.nodeReference "y") := by
    unfold value?
    rw [follows.lookup]
    rfl
  refine ⟨balanced, rfl, shadowed, ?_⟩
  rw [follows.restored "h" inside balanced]
  exact shadowed

end Environment

end GraphScript
