import GraphScript.Proofs.Evaluation.Calls
import GraphScript.Proofs.Model.LookedUpNames
import GraphScript.Proofs.Model.ScopeHistory

namespace GraphScript

/-!
# Variables that are not mentioned

Graphs and commands see the variables of a program only through the names that
occur in them. A variable whose name occurs nowhere else can therefore be added,
and two variables that do not mention each other can trade places: the model and
the invocations stay the same.
-/

/-! ## Paths -/

/-- The names that the value of an argument looks up. -/
def ArgumentSource.lookedUp :
    ArgumentSource →
    List String
  | .path written => written.names
  | .literal _ => []

/-- The names that a command looks up. -/
def Command.lookedUp
    (command : Command) :
    List String :=
  command.arguments.flatMap (·.source.lookedUp)

namespace Resolved

variable
  {environment other : Environment}

/-- A variable comes out under the name that was looked up. -/
theorem root?_eq
    (tidy : environment.Tidy)
    (model : Model)
    (name : String) :
    root? environment model name =
      match environment.value? name with
      | some value => some (.binding name value)
      | none => (model.get? name).map fun graph => .graph graph.id := by
  unfold root? Environment.value?
  cases isFound : environment.get? name with
  | none =>
      rfl
  | some found =>
      have named := tidy.name_of_get? isFound
      simp only [Option.map_some, named]

theorem nodeName?_of_value?
    {name : String}
    (sameValue : environment.value? name = other.value? name)
    (graph : Graph) :
    nodeName? environment graph name = nodeName? other graph name := by
  unfold Environment.value? at sameValue
  unfold nodeName?
  cases isFound : environment.get? name with
  | none =>
      rw [isFound, Option.map_none, eq_comm, Option.map_eq_none_iff]
        at sameValue
      rw [sameValue]
  | some found =>
      rw [isFound, Option.map_some, eq_comm, Option.map_eq_some_iff]
        at sameValue
      obtain ⟨same, isSame, sameValue⟩ := sameValue
      rw [isSame]
      rcases found with ⟨_, _, value, _⟩
      rcases same with ⟨_, _, _, _⟩
      cases sameValue
      cases value <;> rfl

theorem narrow?_of_value?
    {name : String}
    (sameValue : environment.value? name = other.value? name)
    (model : Model)
    (current : Resolved) :
    current.narrow? environment model name =
      current.narrow? other model name := by
  cases current with
  | graph id =>
      simp only [narrow?, nodeName?_of_value? sameValue]
  | binding known value =>
      cases value <;> rfl
  | node owner chosen attributes =>
      rfl
  | scalar value =>
      rfl

theorem narrowAll_of_agreesOn
    {segments : List Identifier}
    (agrees : environment.AgreesOn other (segments.map (·.name)))
    (model : Model)
    (path : Path)
    (current : Resolved) :
    narrowAll environment model path current segments =
      narrowAll other model path current segments := by
  induction segments generalizing current with
  | nil =>
      rfl
  | cons segment rest inductionHypothesis =>
      have first := agrees.value? List.mem_cons_self
      have later :=
        inductionHypothesis (agrees.mono (List.subset_cons_self _ _))
      simp only [narrowAll, narrow?_of_value? first, later]

/-- What a path stands for depends only on the variables that its names mean. -/
theorem ofPath_of_agreesOn
    (tidy : environment.Tidy)
    (otherTidy : other.Tidy)
    {path : Path}
    (agrees : environment.AgreesOn other path.names)
    (model : Model) :
    ofPath environment model path = ofPath other model path := by
  have sameRoot
      (segment : Identifier)
      (member : segment ∈ path.segments) :
      root? environment model segment.name =
        root? other model segment.name := by
    have sameValue := agrees.value? (List.mem_map_of_mem member)
    rw [root?_eq tidy, root?_eq otherTidy, sameValue]
  rcases path with ⟨_ | ⟨first, _ | ⟨second, rest⟩⟩, span⟩
  · rfl
  · simp only [ofPath, sameRoot first (List.mem_singleton.2 rfl)]
  · have later :
        environment.AgreesOn other ((second :: rest).map (·.name)) :=
      agrees.mono (List.subset_cons_self _ _)
    simp only [ofPath, sameRoot first List.mem_cons_self,
      narrowAll_of_agreesOn later]

end Resolved

namespace Registry

variable
  {State : Type}
  {environment other : Environment}
  {command : Command}

/-- What the arguments of a command stand for depends only on their names. -/
theorem mapM_ofArgument_of_agreesOn
    (tidy : environment.Tidy)
    (otherTidy : other.Tidy)
    (agrees : environment.AgreesOn other command.lookedUp)
    (model : Model) :
    command.arguments.mapM (ResolvedArgument.ofArgument environment model) =
      command.arguments.mapM (ResolvedArgument.ofArgument other model) := by
  apply mapM_congr
  intro argument member
  have named : environment.AgreesOn other argument.source.lookedUp :=
    agrees.mono fun name isName =>
      List.mem_flatMap.2 ⟨argument, member, isName⟩
  rcases argument with ⟨key, separator, path | literal, span⟩
  · have samePath :
        Resolved.ofPath environment model path =
          Resolved.ofPath other model path :=
      Resolved.ofPath_of_agreesOn tidy otherTidy named model
    simp only [ResolvedArgument.ofArgument, samePath]
  · rfl

/-- A command does the same in environments that agree on its names. -/
theorem dispatch_of_agreesOn
    (registry : Registry State)
    (tidy : environment.Tidy)
    (otherTidy : other.Tidy)
    (agrees : environment.AgreesOn other command.lookedUp)
    (model : Model)
    (state : State) :
    registry.dispatch environment model command state =
      registry.dispatch other model command state := by
  unfold dispatch
  rw [mapM_ofArgument_of_agreesOn tidy otherTidy agrees]

end Registry

/-! ## Variables -/

/-- The names that occur in a variable declaration. -/
def VariableDeclaration.names
    (declaration : VariableDeclaration) :
    List String :=
  declaration.name.name :: declaration.source.lookedUp

namespace Environment

variable
  {names : List String}
  {environment other next : Environment}
  {declaration : VariableDeclaration}

/-- A variable whose name is none of some names makes no difference to them. -/
theorem agreesOn_bind
    {added : Variable}
    (unmentioned : added.name ∉ names) :
    environment.AgreesOn (environment.bind added) names := by
  intro name member
  rw [meaning?_bind, if_neg]
  rintro rfl
  exact unmentioned member

/-- Variables of different names mean the same in whatever order they are bound. -/
theorem agreesOn_bind_bind
    {first second : Variable}
    (different : first.name ≠ second.name) :
    ((environment.bind first).bind second).AgreesOn
      ((environment.bind second).bind first) names := by
  intro name _
  simp only [meaning?_bind]
  by_cases isSecond : second.name = name
  · subst isSecond
    rw [if_pos rfl, if_neg different, if_pos rfl]
  · rw [if_neg isSecond, if_neg isSecond]

/-- Whether environments agree on names and have no open scope but the program's. -/
structure ProgramAlike
    (names : List String)
    (environment other : Environment) :
    Prop where
  inner : environment.inner = []
  otherInner : other.inner = []
  agrees : environment.AgreesOn other names

theorem innermost_of_inner
    (inner : environment.inner = []) :
    environment.innermost.get? = environment.get? := by
  funext name
  simp [innermost, get?, tables, inner]

theorem inner_bind_of_inner
    (inner : environment.inner = [])
    (added : Variable) :
    (environment.bind added).inner = [] := by
  simp only [bind, inner]

theorem inner_declareVariable
    (declared : environment.declareVariable declaration = .ok next)
    (inner : environment.inner = []) :
    next.inner = [] := by
  obtain ⟨_, value, _, _, rfl⟩ := declareVariable_eq_ok.1 declared
  exact inner_bind_of_inner inner _

/-- What is declared in one environment is declared in the other one, too. -/
theorem ProgramAlike.declareVariable
    (alike : ProgramAlike names environment other)
    (subset : declaration.names ⊆ names)
    (declared : environment.declareVariable declaration = .ok next) :
    ∃ otherNext,
      other.declareVariable declaration = .ok otherNext ∧
        ProgramAlike names next otherNext := by
  obtain ⟨isNew, value, isValue, sameType, rfl⟩ :=
    declareVariable_eq_ok.1 declared
  have agrees := alike.agrees.mono subset
  have sameValue :=
    valueOf_of_agreesOn (agrees.mono (List.subset_cons_self _ _))
  have sameUnbound := isNone_get?_of_agreesOn agrees List.mem_cons_self
  have otherNew : other.innermost.get? declaration.name.name = none := by
    rw [innermost_of_inner alike.inner] at isNew
    rw [innermost_of_inner alike.otherInner, ← Option.isNone_iff_eq_none,
      ← sameUnbound, isNew]
    rfl
  refine
    ⟨_, declareVariable_eq_ok.2
      ⟨otherNew, value, sameValue ▸ isValue, sameType, rfl⟩, ?_⟩
  exact
    { inner := inner_bind_of_inner alike.inner _
      otherInner := inner_bind_of_inner alike.otherInner _
      agrees := alike.agrees.bind _ }

theorem Declares.simulated
    {declarations : List VariableDeclaration}
    (declares : environment.Declares declarations next)
    (mentioned : ∀ declaration ∈ declarations, declaration.names ⊆ names)
    (alike : ProgramAlike names environment other) :
    ∃ otherNext,
      other.Declares declarations otherNext ∧
        ProgramAlike names next otherNext :=
  Succession.simulated declares
    (fun declaration member _ _ _ related declared =>
      related.declareVariable (mentioned declaration member) declared)
    alike

theorem Declares.inner
    {declarations : List VariableDeclaration}
    (declares : environment.Declares declarations next)
    (initial : environment.inner = []) :
    next.inner = [] :=
  declares.keeps (·.inner = []) inner_declareVariable initial

theorem Declares.tidy
    {declarations : List VariableDeclaration}
    (declares : environment.Declares declarations next)
    (initial : environment.Tidy) :
    next.Tidy :=
  declares.keeps Tidy (fun declared tidy => tidy.declareVariable declared)
    initial

/--
Two variables that do not mention each other can be declared in either order,
and all names mean the same then.
-/
theorem declareVariable_swap
    {first second : VariableDeclaration}
    {middle final : Environment}
    (inner : environment.inner = [])
    (isFirst : environment.declareVariable first = .ok middle)
    (isSecond : middle.declareVariable second = .ok final)
    (firstUnmentioned : first.name.name ∉ second.source.lookedUp)
    (secondUnmentioned : second.name.name ∉ first.source.lookedUp) :
    ∃ otherMiddle otherFinal,
      environment.declareVariable second = .ok otherMiddle ∧
        otherMiddle.declareVariable first = .ok otherFinal ∧
        ∀ names, ProgramAlike names final otherFinal := by
  obtain ⟨firstNew, value, isValue, firstType, rfl⟩ :=
    declareVariable_eq_ok.1 isFirst
  obtain ⟨secondNew, later, isLater, secondType, rfl⟩ :=
    declareVariable_eq_ok.1 isSecond
  -- The second one was declared on top of the first, so their names differ.
  have different : first.name.name ≠ second.name.name := by
    intro same
    rw [innermost_bind, NameMap.get?_insert, if_pos same] at secondNew
    cases secondNew
  rw [innermost_bind, NameMap.get?_insert, if_neg different] at secondNew
  have laterValue : environment.valueOf second = .ok later := by
    rw [← isLater]
    exact valueOf_of_agreesOn (agreesOn_bind firstUnmentioned)
  have earlierValue :
      (environment.bind
        ⟨second.name.name, second.declaredType, later,
          second.name.span⟩).valueOf first = .ok value := by
    rw [← isValue]
    exact (valueOf_of_agreesOn (agreesOn_bind secondUnmentioned)).symm
  refine
    ⟨_, _,
      declareVariable_eq_ok.2 ⟨secondNew, later, laterValue, secondType, rfl⟩,
      declareVariable_eq_ok.2 ⟨?_, value, earlierValue, firstType, rfl⟩, ?_⟩
  · rw [innermost_bind, NameMap.get?_insert, if_neg (Ne.symm different)]
    exact firstNew
  · intro names
    exact
      { inner := inner_bind_of_inner (inner_bind_of_inner inner _) _
        otherInner := inner_bind_of_inner (inner_bind_of_inner inner _) _
        agrees := agreesOn_bind_bind different }

end Environment

/-! ## Graphs and commands -/

/-- Graphs are built alike in environments that agree on their names. -/
theorem ModelBuilder.Builds.of_agreesOn
    {builder built : ModelBuilder}
    {environment other : Environment}
    {declarations : List GraphDeclaration}
    (builds : builder.Builds environment declarations built)
    (agrees :
      environment.AgreesOn other
        (declarations.flatMap GraphDeclaration.lookedUp)) :
    builder.Builds other declarations built := by
  apply Succession.imp builds
  intro declaration member state next built
  have named : environment.AgreesOn other declaration.lookedUp :=
    agrees.mono fun name isName =>
      List.mem_flatMap.2 ⟨declaration, member, isName⟩
  rw [state.build_of_agreesOn named, built]

namespace Registry

variable
  {State : Type}
  {registry : Registry State}

/-- Commands are served alike in environments that agree on their names. -/
theorem ServesAll.of_agreesOn
    {environment other : Environment}
    {model : Model}
    {progress final : Progress State}
    {commands : List Command}
    (serves : registry.ServesAll environment model progress commands final)
    (tidy : environment.Tidy)
    (otherTidy : other.Tidy)
    (agrees :
      environment.AgreesOn other (commands.flatMap Command.lookedUp)) :
    registry.ServesAll other model progress commands final := by
  apply Succession.imp serves
  intro command member state next served
  have named : environment.AgreesOn other command.lookedUp :=
    agrees.mono fun name isName =>
      List.mem_flatMap.2 ⟨command, member, isName⟩
  have sameArguments :=
    mapM_ofArgument_of_agreesOn tidy otherTidy named model
  cases served with
  | called resolved registered succeeded =>
      rw [sameArguments] at resolved
      exact .called resolved registered succeeded

end Registry

/-! ## Changes of programs -/

namespace Program

/-- The names that a program's variables, graphs and commands mention. -/
def names
    (program : Program) :
    List String :=
  program.bindings.flatMap VariableDeclaration.names ++
    (program.graphs.flatMap GraphDeclaration.lookedUp ++
      program.commands.flatMap Command.lookedUp)

/--
Changes of a program's variables that no graph and no command can see.

A variable may be added that can be evaluated in its place and that is mentioned
nowhere else. Two adjacent variables that do not mention each other may trade
places.
-/
inductive Rearranges
    (program : Program) :
    Program →
    Prop where
  | added
      {before after : List VariableDeclaration}
      {fresh : VariableDeclaration}
      {reached : Environment}
      (split : program.bindings = before ++ after)
      (evaluated :
        Environment.empty.declareAll (before ++ [fresh]) = .ok reached)
      (unmentioned : fresh.name.name ∉ program.names) :
      Rearranges program
        { program with bindings := before ++ fresh :: after }
  | swapped
      {before after : List VariableDeclaration}
      {first second : VariableDeclaration}
      (split : program.bindings = before ++ first :: second :: after)
      (firstUnmentioned : first.name.name ∉ second.source.lookedUp)
      (secondUnmentioned : second.name.name ∉ first.source.lookedUp) :
      Rearranges program
        { program with bindings := before ++ second :: first :: after }

/-- The changed variables are declared, too, and mean the same to the program. -/
theorem Rearranges.declares
    {program changed : Program}
    (rearranges : program.Rearranges changed)
    {declared : Environment}
    (declares : Environment.empty.Declares program.bindings declared) :
    ∃ other,
      Environment.empty.Declares changed.bindings other ∧
        declared.AgreesOn other program.names := by
  have mentioned
      (declaration : VariableDeclaration)
      (member : declaration ∈ program.bindings) :
      declaration.names ⊆ program.names := by
    intro name isName
    exact List.mem_append_left _
      (List.mem_flatMap.2 ⟨declaration, member, isName⟩)
  cases rearranges with
  | @added before after fresh reached split evaluated unmentioned =>
      rw [split] at declares mentioned
      obtain ⟨middle, earlier, later⟩ := Succession.split declares
      have inner : middle.inner = [] := Environment.Declares.inner earlier rfl
      have isFresh : middle.declareVariable fresh = .ok reached := by
        rw [Environment.Declares.declareAll_append earlier] at evaluated
        simpa [Environment.declareAll] using evaluated
      -- From here on the program cannot tell the two environments apart.
      have alike :
          Environment.ProgramAlike program.names middle reached := by
        refine ⟨inner, Environment.inner_declareVariable isFresh inner, ?_⟩
        obtain ⟨_, _, _, _, rfl⟩ :=
          Environment.declareVariable_eq_ok.1 isFresh
        exact Environment.agreesOn_bind unmentioned
      obtain ⟨other, otherLater, alike⟩ :=
        Environment.Declares.simulated later
          (fun declaration member =>
            mentioned declaration (by simp [member])) alike
      exact
        ⟨other, Succession.append earlier (.cons isFresh otherLater),
          alike.agrees⟩
  | @swapped before after first second split firstUnmentioned
        secondUnmentioned =>
      rw [split] at declares mentioned
      obtain ⟨middle, earlier, later⟩ := Succession.split declares
      have inner : middle.inner = [] := Environment.Declares.inner earlier rfl
      rcases later with _ | ⟨isFirst, _ | ⟨isSecond, later⟩⟩
      obtain ⟨_, _, otherSecond, otherFirst, alike⟩ :=
        Environment.declareVariable_swap inner isFirst isSecond
          firstUnmentioned secondUnmentioned
      obtain ⟨other, otherLater, alike⟩ :=
        Environment.Declares.simulated later
          (fun declaration member =>
            mentioned declaration (by simp [member])) (alike program.names)
      exact
        ⟨other,
          Succession.append earlier
            (.cons otherSecond (.cons otherFirst otherLater)),
          alike.agrees⟩

end Program

namespace Registry

variable
  {State : Type}

/-- A program whose variables are changed out of sight runs as before. -/
theorem Evaluates.of_rearranges
    {registry : Registry State}
    {program changed : Program}
    {state last : State}
    {evaluation : Evaluation}
    {calls : List Call}
    (rearranges : program.Rearranges changed)
    (evaluates : registry.Evaluates program state (.ok evaluation) last calls) :
    ∃ other,
      registry.Evaluates changed state (.ok other) last calls ∧
        other.model = evaluation.model ∧
        other.invocations = evaluation.invocations := by
  have sameGraphs : changed.graphs = program.graphs := by
    cases rearranges <;> rfl
  have sameCommands : changed.commands = program.commands := by
    cases rearranges <;> rfl
  cases evaluates with
  | completed declares builds serves =>
      obtain ⟨other, otherDeclares, agrees⟩ := rearranges.declares declares
      have otherBuilds :=
        builds.of_agreesOn (agrees.mono (by simp [Program.names]))
      have otherServes :=
        serves.of_agreesOn
          (Environment.Declares.tidy declares .empty)
          (Environment.Declares.tidy otherDeclares .empty)
          (agrees.mono (by simp [Program.names]))
      rw [← sameGraphs] at otherBuilds
      rw [← sameCommands] at otherServes
      exact
        ⟨_, .completed otherDeclares otherBuilds otherServes, rfl, rfl⟩

/--
Variables matter only under the names that are mentioned.

A graph declaration and a command do the same in all environments in which the
names that they look up mean the same. A program that evaluates successfully
therefore has the same model and the same invocations when its variables are
changed out of the sight of its graphs and commands.
-/
theorem unmentioned_variables_do_not_matter
    (registry : Registry State) :
    (∀ (builder : ModelBuilder) (environment other : Environment)
        (declaration : GraphDeclaration),
      environment.AgreesOn other declaration.lookedUp →
      (builder.build environment declaration).outcome =
          (builder.build other declaration).outcome ∧
        (builder.build environment declaration).builder =
          (builder.build other declaration).builder) ∧
    (∀ (environment other : Environment) (model : Model) (command : Command)
        (state : State),
      environment.Reachable →
      other.Reachable →
      environment.AgreesOn other command.lookedUp →
      registry.dispatch environment model command state =
        registry.dispatch other model command state) ∧
    ∀ (program changed : Program) (state last : State)
        (evaluation : Evaluation),
      program.Rearranges changed →
      registry.evaluate program state = (.ok evaluation, last) →
      ∃ other,
        registry.evaluate changed state = (.ok other, last) ∧
          other.model = evaluation.model ∧
          other.invocations = evaluation.invocations := by
  refine ⟨?_, ?_, ?_⟩
  · intro builder environment other declaration agrees
    rw [builder.build_of_agreesOn agrees]
    exact ⟨rfl, rfl⟩
  · intro environment other model command state reachable otherReachable agrees
    exact registry.dispatch_of_agreesOn
      (Environment.Tidy.of_reachable reachable)
      (Environment.Tidy.of_reachable otherReachable)
      agrees model state
  · intro program changed state last evaluation rearranges succeeded
    obtain ⟨calls, evaluates⟩ := evaluates_of_evaluate succeeded
    obtain ⟨other, otherEvaluates, sameModel, sameInvocations⟩ :=
      evaluates.of_rearranges rearranges
    exact ⟨other, otherEvaluates.evaluate, sameModel, sameInvocations⟩

/-- A variable that nothing mentions is added in front of one that is used. -/
theorem unmentioned_variables_do_not_matter_of_spare :
    let name (text : String) : Identifier := ⟨text, default⟩
    let declaration (text node : String) : VariableDeclaration :=
      ⟨.node, name text, .reference (name node), default⟩
    let operation (text node : String) : Environment.Operation :=
      .declare (name text) .node (.nodeReference node)
    let environment := Environment.empty.after [operation "hub" "a"]
    let other :=
      Environment.empty.after [operation "spare" "z", operation "hub" "a"]
    let graph : GraphDeclaration :=
      ⟨.directed, name "g",
        [.statement (.edge ⟨name "hub", .forward, name "b", none, default⟩)],
        default⟩
    let command : Command :=
      ⟨name "count",
        [⟨name "of", .assign, .path ⟨[name "g", name "hub"], default⟩, default⟩],
        default⟩
    let program : Program :=
      ⟨[declaration "hub" "a"], [graph], [command], default⟩
    let changed : Program :=
      ⟨[declaration "spare" "z", declaration "hub" "a"], [graph], [command],
        default⟩
    let registry : Registry Nat :=
      Registry.empty.register "count"
        fun _ _ calls => (.ok (.count calls), calls + 1)
    let model := (ModelBuilder.empty.build environment graph).builder.model
    (ModelBuilder.empty.build environment graph).outcome =
        (ModelBuilder.empty.build other graph).outcome ∧
      registry.dispatch environment model command 0 =
        registry.dispatch other model command 0 ∧
      ∃ evaluation unchanged,
        registry.evaluate program 0 = (.ok evaluation, 1) ∧
          registry.evaluate changed 0 = (.ok unchanged, 1) ∧
          unchanged.model = evaluation.model ∧
          unchanged.invocations = evaluation.invocations := by
  intro name declaration operation environment other graph command program
    changed registry model
  obtain ⟨building, dispatching, evaluating⟩ :=
    unmentioned_variables_do_not_matter registry
  have agrees : environment.AgreesOn other ["g", "hub", "b"] := by
    simp only [Environment.AgreesOn, List.forall_mem_cons]
    exact ⟨rfl, rfl, rfl, nofun⟩
  refine ⟨?_, ?_, ?_⟩
  · exact (building .empty environment other graph
      (agrees.mono (by decide))).1
  · exact dispatching environment other model command 0 ⟨_, rfl⟩ ⟨_, rfl⟩
      (agrees.mono (by decide))
  · have split : program.bindings = [] ++ program.bindings := rfl
    have rearranges : program.Rearranges changed :=
      .added split rfl (by decide)
    obtain ⟨unchanged, succeeded, same⟩ :=
      evaluating program changed 0 1 _ rearranges rfl
    exact ⟨_, unchanged, rfl, succeeded, same⟩

end Registry

end GraphScript
