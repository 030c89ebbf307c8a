import GraphScript.Proofs.Search.KnownNodes
import GraphScript.Proofs.Search.RunChecks

namespace GraphScript.Search

/-!
# What commands read of their arguments

A search reads the first argument of each role, and of it only the key and the
value. The command `animate` reads one more role and then does what the command of
the algorithm does that it chooses.
-/

/-! ## Arguments with the same roles -/

/-- What an argument of a search is for. -/
inductive Role where
  | start
  | target
  | graph
  | algorithm

namespace Role

/-- The keys that the arguments of a role may have. -/
def keys :
    Role →
    List String
  | .start => ["start", "start_node", "source"]
  | .target => ["target", "target_node", "destination"]
  | .graph => ["graph"]
  | .algorithm => ["algorithm"]

/-- No argument has the role. -/
def IsMissing
    (role : Role)
    (arguments : List ResolvedArgument) :
    Prop :=
  ∀ argument ∈ arguments, argument.key ∉ role.keys

/-- An argument has the role, and none before it has. -/
def IsFirst
    (role : Role)
    (arguments : List ResolvedArgument)
    (argument : ResolvedArgument) :
    Prop :=
  argument.key ∈ role.keys ∧
    ∃ before after,
      arguments = before ++ argument :: after ∧ role.IsMissing before

variable
  {role : Role}
  {arguments : List ResolvedArgument}

/-- No argument is found by the keys of a role that is missing. -/
theorem argument?_eq_none_iff :
    argument? arguments role.keys = none ↔ role.IsMissing arguments := by
  simp [argument?, IsMissing]

/-- The argument that is found by the keys of a role is the first one that has it. -/
theorem argument?_eq_some_iff
    {argument : ResolvedArgument} :
    argument? arguments role.keys = some argument ↔
      role.IsFirst arguments argument := by
  simp [argument?, IsFirst, IsMissing, List.find?_eq_some_iff_append]

end Role

/--
The first arguments of a role agree.

There is none among either, or both have the same key and the same value. Their
separators may differ.
-/
inductive SameFirst
    (role : Role)
    (first second : List ResolvedArgument) :
    Prop where
  | absent
      (lacks : role.IsMissing first)
      (alsoLacks : role.IsMissing second)
  | given
      (key : String)
      (value : Resolved)
      (separator otherSeparator : Separator)
      (found : role.IsFirst first ⟨key, separator, value⟩)
      (alsoFound : role.IsFirst second ⟨key, otherSeparator, value⟩)

/-- The first arguments of every role agree. -/
def SameRoles
    (first second : List ResolvedArgument) :
    Prop :=
  ∀ role, SameFirst role first second

variable
  {first second arguments : List ResolvedArgument}
  {model : Model}
  {State : Type}

/-- Both look-ups by the keys of a role fail, or both find the key and the value. -/
theorem SameFirst.argument?_cases
    {role : Role}
    (same : SameFirst role first second) :
    argument? first role.keys = none ∧ argument? second role.keys = none ∨
      ∃ key value separator otherSeparator,
        argument? first role.keys = some ⟨key, separator, value⟩ ∧
          argument? second role.keys =
            some ⟨key, otherSeparator, value⟩ := by
  cases same with
  | absent lacks alsoLacks =>
      exact .inl
        ⟨Role.argument?_eq_none_iff.2 lacks,
          Role.argument?_eq_none_iff.2 alsoLacks⟩
  | given key value separator otherSeparator found alsoFound =>
      exact .inr ⟨key, value, separator, otherSeparator,
        Role.argument?_eq_some_iff.2 found,
        Role.argument?_eq_some_iff.2 alsoFound⟩

/-- A role is given among both or among neither. -/
theorem SameFirst.isSome_eq
    {role : Role}
    (same : SameFirst role first second) :
    (argument? first role.keys).isSome =
      (argument? second role.keys).isSome := by
  rcases same.argument?_cases with
    ⟨lacks, alsoLacks⟩ | ⟨_, _, _, _, found, alsoFound⟩
  · rw [lacks, alsoLacks]
  · rw [found, alsoFound]
    rfl

/-! ## The roles that commands read -/

/-- The keys by which commands look up their arguments are those of the roles. -/
theorem keys_of_roles :
    startKeys = Role.start.keys ∧
      targetKeys = Role.target.keys ∧
      graphKeys = Role.graph.keys ∧
      algorithmKeys = Role.algorithm.keys :=
  ⟨rfl, rfl, rfl, rfl⟩

/-- A start decides the address; the graph is read only where there is none. -/
theorem address_congr
    (start : SameFirst .start first second)
    (graph : SameFirst .graph first second) :
    address first = address second := by
  unfold address
  rw [keys_of_roles.1, keys_of_roles.2.2.1]
  rcases start.argument?_cases with
    ⟨noStart, alsoNoStart⟩ | ⟨_, _, _, _, isStart, alsoStart⟩
  · rw [noStart, alsoNoStart]
    rcases graph.argument?_cases with
      ⟨noGraph, alsoNoGraph⟩ | ⟨_, _, _, _, isGraph, alsoGraph⟩
    · rw [noGraph, alsoNoGraph]
    · rw [isGraph, alsoGraph]
      rfl
  · rw [isStart, alsoStart]
    rfl

/-- The target that is named depends on the first argument for a target alone. -/
theorem targetOf_congr
    (graph : Graph)
    (target : SameFirst .target first second) :
    targetOf graph first = targetOf graph second := by
  unfold targetOf
  rw [keys_of_roles.2.1]
  rcases target.argument?_cases with
    ⟨noTarget, alsoNoTarget⟩ | ⟨_, _, _, _, isTarget, alsoTarget⟩
  · rw [noTarget, alsoNoTarget]
  · rw [isTarget, alsoTarget]
    rfl

/-- The choice reads the algorithm, and else whether a start and a target are given. -/
theorem chooseAlgorithm_congr
    (same : SameRoles first second) :
    chooseAlgorithm first = chooseAlgorithm second := by
  unfold chooseAlgorithm
  rw [keys_of_roles.1, keys_of_roles.2.1, keys_of_roles.2.2.2]
  rcases (same .algorithm).argument?_cases with
    ⟨noAlgorithm, alsoNoAlgorithm⟩ | ⟨_, _, _, _, isAlgorithm, alsoAlgorithm⟩
  · rw [noAlgorithm, alsoNoAlgorithm, (same .start).isSome_eq,
      (same .target).isSome_eq]
  · rw [isAlgorithm, alsoAlgorithm]
    rfl

/-- What an algorithm is run on depends on the start, the graph and the target. -/
theorem runOn_congr
    (algorithm : Algorithm)
    (model : Model)
    (same : SameRoles first second) :
    runOn algorithm model first = runOn algorithm model second := by
  unfold runOn
  rw [address_congr (same .start) (same .graph)]
  simp only [fun graph => targetOf_congr graph (same .target)]

/-- A search that is registered answers alike to arguments with the same roles. -/
theorem IsSearch.congr
    {handler : Handler State}
    (isSearch : IsSearch handler)
    (model : Model)
    (same : SameRoles first second)
    (state : State) :
    handler model first state = handler model second state := by
  cases isSearch with
  | handler algorithm =>
      rw [Search.handler, Search.handler, runOn_congr algorithm model same]
  | animate =>
      unfold animateHandler
      rw [chooseAlgorithm_congr same]
      simp only [fun algorithm => runOn_congr algorithm model same]

/-! ## The algorithm that is chosen -/

/-- A name is spelled like a listed one, with capitals for any of its letters. -/
def SpelledAs
    (name listed : String) :
    Prop :=
  List.Forall₂
    (fun letter small => letter = small ∨ letter = small.toUpper)
    name.toList listed.toList

instance (name listed : String) : Decidable (SpelledAs name listed) :=
  inferInstanceAs (Decidable (List.Forall₂ _ _ _))

theorem lower_of_spelledAs
    {name listed : String}
    (spelled : SpelledAs name listed)
    (smallsStay : listed.toList.map Char.toLower = listed.toList)
    (capitalsShrink :
      listed.toList.map (fun small => small.toUpper.toLower) =
        listed.toList) :
    listed = String.ofList (name.toList.map Char.toLower) := by
  suffices areLetters : name.toList.map Char.toLower = listed.toList by
    rw [areLetters, String.ofList_toList]
  unfold SpelledAs at spelled
  generalize name.toList = letters at *
  generalize listed.toList = smalls at *
  induction spelled with
  | nil =>
      rfl
  | @cons letter small letters smalls isLetter spelled inductionHypothesis =>
      obtain ⟨smallStays, othersStay⟩ := List.cons.inj smallsStay
      obtain ⟨capitalShrinks, othersShrink⟩ := List.cons.inj capitalsShrink
      have isSmall : letter.toLower = small := by
        rcases isLetter with rfl | rfl
        · exact smallStays
        · exact capitalShrinks
      rw [List.map_cons, isSmall, inductionHypothesis othersStay othersShrink]

namespace Algorithm

/-- The names under which an algorithm is a command. -/
def names :
    Algorithm →
    List String
  | .breadthFirst => ["bfs", "breadth_first"]
  | .depthFirst => ["dfs", "depth_first"]
  | .dijkstra => ["dijkstra", "shortest_path"]

/-- The two names are the short and the long one that the program has. -/
theorem names_eq
    (algorithm : Algorithm) :
    algorithm.names = [algorithm.text, algorithm.longText] := by
  cases algorithm <;> rfl

/-- A name that is listed is accepted in any case of its letters. -/
theorem isNamed_of_spelledAs
    {algorithm : Algorithm}
    {name listed : String}
    (isListed : listed ∈ algorithm.names)
    (spelled : SpelledAs name listed) :
    algorithm.IsNamed name := by
  rw [names_eq, List.mem_pair] at isListed
  have smallsStay : listed.toList.map Char.toLower = listed.toList := by
    rcases isListed with rfl | rfl
    all_goals cases algorithm
    all_goals decide
  have capitalsShrink :
      listed.toList.map (fun small => small.toUpper.toLower) =
        listed.toList := by
    rcases isListed with rfl | rfl
    all_goals cases algorithm
    all_goals decide
  have isLower := lower_of_spelledAs spelled smallsStay capitalsShrink
  rcases isListed with rfl | rfl
  · exact .inl isLower
  · exact .inr isLower

end Algorithm

/--
The algorithm that arguments ask for.

They name it, in any case. If they do not name one, a start and a target ask for a
shortest path, and less than that asks for a breadth-first traversal.
-/
inductive AsksFor
    (arguments : List ResolvedArgument) :
    Algorithm →
    Prop where
  | named
      {algorithm : Algorithm}
      {argument : ResolvedArgument}
      {value : Scalar}
      {name listed : String}
      (found : Role.algorithm.IsFirst arguments argument)
      (isScalar : argument.value = .scalar value)
      (isText : value.text? = some name)
      (isListed : listed ∈ algorithm.names)
      (spelled : SpelledAs name listed) :
      AsksFor arguments algorithm
  | path
      (noAlgorithm : Role.algorithm.IsMissing arguments)
      (hasStart : ¬ Role.start.IsMissing arguments)
      (hasTarget : ¬ Role.target.IsMissing arguments) :
      AsksFor arguments .dijkstra
  | traversal
      (noAlgorithm : Role.algorithm.IsMissing arguments)
      (lacks :
        Role.start.IsMissing arguments ∨ Role.target.IsMissing arguments) :
      AsksFor arguments .breadthFirst

/-- The algorithm that arguments ask for is the one that is chosen. -/
theorem AsksFor.chooseAlgorithm
    {algorithm : Algorithm}
    (asks : AsksFor arguments algorithm) :
    chooseAlgorithm arguments = .ok algorithm := by
  unfold Search.chooseAlgorithm
  rw [keys_of_roles.1, keys_of_roles.2.1, keys_of_roles.2.2.2]
  cases asks with
  | named found isScalar isText isListed spelled =>
      have isName :=
        Algorithm.ofName?_eq_some_iff.mpr
          (Algorithm.isNamed_of_spelledAs isListed spelled)
      rw [Role.argument?_eq_some_iff.2 found]
      simp only [isScalar, isText, isName]
  | path noAlgorithm hasStart hasTarget =>
      rw [← Role.argument?_eq_none_iff] at noAlgorithm hasStart hasTarget
      simp [noAlgorithm, Option.isSome_iff_ne_none, hasStart, hasTarget]
  | traversal noAlgorithm lacks =>
      simp only [← Role.argument?_eq_none_iff] at noAlgorithm lacks
      rcases lacks with noStart | noTarget
      · simp [noAlgorithm, noStart]
      · simp [noAlgorithm, noTarget]

/-- With an algorithm that is asked for, `animate` is the command of that algorithm. -/
theorem animateHandler_of_asksFor
    {algorithm : Algorithm}
    (asks : AsksFor arguments algorithm)
    (model : Model)
    (state : State) :
    animateHandler model arguments state =
      handler algorithm model arguments state := by
  unfold animateHandler handler
  rw [asks.chooseAlgorithm]
  rfl

/-- Each algorithm is registered under all of its names. -/
theorem get?_registry_of_mem_names
    {algorithm : Algorithm}
    {command : String}
    (isListed : command ∈ algorithm.names) :
    (registry : Registry State).get? command = some (handler algorithm) := by
  rw [Algorithm.names_eq, List.mem_pair] at isListed
  rcases isListed with rfl | rfl
  all_goals cases algorithm
  all_goals rfl

/--
Commands depend on the first argument of each role, and on nothing else of their
arguments.

Arguments with the same roles have the same answer from every command that
searches. With an algorithm that its arguments ask for, `animate` answers as the
command of that algorithm does under each of its names.
-/
theorem commands_read_first_of_each_role :
    (∀ (command : String) (found : Handler State)
        (model : Model) (first second : List ResolvedArgument) (state : State),
      (registry : Registry State).get? command = some found →
      SameRoles first second →
      found model first state = found model second state) ∧
      ∀ (algorithm : Algorithm) (command : String),
        command ∈ algorithm.names →
        ∃ animate dedicated,
          (registry : Registry State).get? "animate" = some animate ∧
            (registry : Registry State).get? command = some dedicated ∧
            ∀ (model : Model) (arguments : List ResolvedArgument)
                (state : State),
              AsksFor arguments algorithm →
              animate model arguments state =
                dedicated model arguments state := by
  constructor
  · intro command found model first second state registered same
    exact (onlySearches_registry command found registered).congr model same state
  · intro algorithm command isListed
    refine ⟨animateHandler, handler algorithm, rfl,
      get?_registry_of_mem_names isListed, ?_⟩
    intro model arguments state asks
    exact animateHandler_of_asksFor asks model state

/-- A graph in which one node leads to another. -/
def lineModel : Model :=
  let nodes := ["s", "t"].foldl Graph.mention (.empty "g" true)
  .add .empty (nodes.appendEdge (.between "s" .forward "t" .empty))

/-- A start, a target and a graph, and a second start behind them. -/
def startFirst
    (start target : String) :
    List ResolvedArgument :=
  [⟨start, .assign, .node "g" "s" .empty⟩,
    ⟨target, .assign, .node "g" "t" .empty⟩,
    ⟨"graph", .assign, .graph "g"⟩,
    ⟨"source", .assign, .graph "g"⟩]

/-- The same the other way round, with something else between them. -/
def targetFirst
    (start target : String) :
    List ResolvedArgument :=
  [⟨"graph", .typed, .graph "g"⟩,
    ⟨target, .typed, .node "g" "t" .empty⟩,
    ⟨"label", .assign, .scalar (.word "depth_first")⟩,
    ⟨start, .typed, .node "g" "s" .empty⟩]

/-- Arguments behind one that names an algorithm. -/
def algorithmFirst : List ResolvedArgument :=
  ⟨"algorithm", .assign, .scalar (.string "Depth_FIRST")⟩ ::
    startFirst "start" "target"

/-- Whatever the keys of the start and the target are, the roles agree. -/
theorem sameRoles_startFirst_targetFirst
    {start target : String}
    (isStart : start ∈ Role.start.keys)
    (isTarget : target ∈ Role.target.keys) :
    SameRoles (startFirst start target) (targetFirst start target) := by
  have lookedUp
      {role : Role}
      {arguments : List ResolvedArgument}
      {argument : ResolvedArgument}
      (found : argument? arguments role.keys = some argument) :
      role.IsFirst arguments argument :=
    Role.argument?_eq_some_iff.1 found
  simp only [Role.keys, List.mem_cons, List.not_mem_nil, or_false]
    at isStart isTarget
  intro role
  rcases isStart with rfl | rfl | rfl
  all_goals rcases isTarget with rfl | rfl | rfl
  all_goals cases role with
    | start =>
        exact .given _ _ _ _ (lookedUp rfl) (lookedUp rfl)
    | target =>
        exact .given _ _ _ _ (lookedUp rfl) (lookedUp rfl)
    | graph =>
        exact .given _ _ _ _ (lookedUp rfl) (lookedUp rfl)
    | algorithm =>
        exact .absent (Role.argument?_eq_none_iff.1 rfl)
          (Role.argument?_eq_none_iff.1 rfl)

/-- The three keys of a start and of a target, and an algorithm in other letters. -/
theorem commands_read_first_of_each_role_of_swapped :
    (∃ traversal path,
      (registry : Registry Unit).get? "breadth_first" = some traversal ∧
        (registry : Registry Unit).get? "shortest_path" = some path ∧
        SameRoles (startFirst "start" "target")
          (targetFirst "start" "target") ∧
        SameRoles (startFirst "start_node" "target_node")
          (targetFirst "start_node" "target_node") ∧
        SameRoles (startFirst "source" "destination")
          (targetFirst "source" "destination") ∧
        (traversal lineModel (startFirst "start" "target") ()).1.isOk =
          true ∧
        traversal lineModel (startFirst "start" "target") () =
          traversal lineModel (targetFirst "start" "target") () ∧
        path lineModel (startFirst "start_node" "target_node") () =
          path lineModel (targetFirst "start_node" "target_node") () ∧
        path lineModel (startFirst "source" "destination") () =
          path lineModel (targetFirst "source" "destination") ()) ∧
      ∃ animate dedicated,
        (registry : Registry Unit).get? "animate" = some animate ∧
          (registry : Registry Unit).get? "dfs" = some dedicated ∧
          AsksFor algorithmFirst .depthFirst ∧
          animate lineModel algorithmFirst () =
            dedicated lineModel algorithmFirst () := by
  obtain ⟨alike, chosen⟩ := @commands_read_first_of_each_role Unit
  have first : SameRoles (startFirst "start" "target") (targetFirst _ _) :=
    sameRoles_startFirst_targetFirst (by decide) (by decide)
  have second :
      SameRoles (startFirst "start_node" "target_node") (targetFirst _ _) :=
    sameRoles_startFirst_targetFirst (by decide) (by decide)
  have third :
      SameRoles (startFirst "source" "destination") (targetFirst _ _) :=
    sameRoles_startFirst_targetFirst (by decide) (by decide)
  have isLong : "depth_first" ∈ Algorithm.depthFirst.names := by
    decide
  have asks : AsksFor algorithmFirst .depthFirst :=
    .named (Role.argument?_eq_some_iff.1 rfl) rfl rfl isLong (by decide)
  obtain ⟨animate, dedicated, isAnimate, isDedicated, answers⟩ :=
    chosen .depthFirst "dfs" (by decide)
  refine ⟨⟨handler .breadthFirst, handler .dijkstra, rfl, rfl, first, second,
    third, rfl, ?_, ?_, ?_⟩, animate, dedicated, isAnimate, isDedicated, asks,
    ?_⟩
  · exact alike "breadth_first" _ lineModel _ _ () rfl first
  · exact alike "shortest_path" _ lineModel _ _ () rfl second
  · exact alike "shortest_path" _ lineModel _ _ () rfl third
  · exact answers lineModel algorithmFirst () asks

end GraphScript.Search
