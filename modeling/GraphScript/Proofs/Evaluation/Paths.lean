import GraphScript.Proofs.Evaluation.ResolvedArguments

namespace GraphScript

/-!
# What paths denote

A path of two or more names leads to an attribute of a variable, to a node of a
graph, or to an attribute of such a node. It cannot be followed otherwise, and
then it fails at the first name that does not narrow what the names before it
have led to. The lengths at which the path is cut off tell which one that is.
-/

/--
A name denotes a node of a graph.

A node of that name comes first, and then the node that a variable holds.
-/
inductive Graph.DenotesNode
    (graph : Graph)
    (environment : Environment)
    (name : String) :
    String → Prop
  | named
      (isNode : graph.hasNode name = true) :
      DenotesNode graph environment name name
  | held
      {found : Variable}
      {node : String}
      (noNode : graph.hasNode name = false)
      (bound : environment.get? name = some found)
      (holds : found.value = .nodeReference node)
      (isNode : graph.hasNode node = true) :
      DenotesNode graph environment name node

namespace Resolved

/-- What the names of a path denote together. -/
inductive Denotes
    (environment : Environment)
    (model : Model) :
    List String → Resolved → Prop
  | attributeOfVariable
      {name key : String}
      {found : Variable}
      {attributes : Attributes}
      {value : Scalar}
      (bound : environment.get? name = some found)
      (holds : found.value = .attributeList attributes)
      (isKey : attributes.get? key = some value) :
      Denotes environment model [name, key] (.scalar value)
  | nodeOfGraph
      {id name node : String}
      {graph : Graph}
      {own : Attributes}
      (unbound : environment.get? id = none)
      (isGraph : model.get? id = some graph)
      (denotes : graph.DenotesNode environment name node)
      (hasOwn : graph.nodes.get? node = some own) :
      Denotes environment model [id, name] (.node id node own)
  | attributeOfNode
      {id name node key : String}
      {graph : Graph}
      {effective : Attributes}
      {value : Scalar}
      (unbound : environment.get? id = none)
      (isGraph : model.get? id = some graph)
      (denotes : graph.DenotesNode environment name node)
      (hasEffective : graph.effectiveNodeAttributes? node = some effective)
      (isKey : effective.get? key = some value) :
      Denotes environment model [id, name, key] (.scalar value)

end Resolved

/-- The path that is cut off after some of its names. -/
def Path.upTo
    (path : Path)
    (length : Nat) :
    Path :=
  { path with segments := path.segments.take length }

theorem Path.upTo_length
    (path : Path) :
    path.upTo path.segments.length = path := by
  rw [upTo, List.take_length]

/-- A path cannot be followed at one of its names, and it can up to there. -/
structure Path.FailsAt
    (environment : Environment)
    (model : Model)
    (path : Path)
    (place : Nat)
    (segment : Identifier) :
    Prop where
  isSegment : path.segments[place]? = some segment
  fails :
    Resolved.ofPath environment model path =
      .error (.pathResolution path.names segment.name segment.span)
  atRoot :
    place = 0 ↔
      ∀ root, path.names.head? = some root →
        environment.get? root = none ∧ model.get? root = none
  before :
    ∀ length, 1 ≤ length → length ≤ place →
      ∃ resolved,
        Resolved.ofPath environment model (path.upTo length) = .ok resolved
  after :
    ∀ length, 2 ≤ length → place < length →
      Resolved.ofPath environment model (path.upTo length) =
        .error
          (.pathResolution (path.upTo length).names segment.name segment.span)

namespace Resolved

variable
  {environment : Environment}
  {model : Model}
  {graph : Graph}
  {id name node key : String}
  {next resolved : Resolved}

/-! ## Following one more name -/

theorem nodeName?_eq_some_iff :
    nodeName? environment graph name = some node ↔
      graph.DenotesNode environment name node := by
  constructor
  · intro isName
    by_cases isNode : graph.hasNode name = true
    · simp only [nodeName?, if_pos isNode, Option.some.injEq] at isName
      exact isName ▸ .named isNode
    · simp only [nodeName?, if_neg isNode] at isName
      split at isName
      · next bound =>
          split at isName
          · next heldIsNode =>
              cases isName
              exact .held (Bool.eq_false_iff.mpr isNode) bound rfl heldIsNode
          · cases isName
      · cases isName
  · intro denotes
    cases denotes with
    | named isNode =>
        simp [nodeName?, isNode]
    | @held found _ noNode bound holds isNode =>
        rcases found with ⟨_, _, value, _⟩
        cases holds
        simp [nodeName?, noNode, bound, isNode]

/-- A graph is narrowed to the node that a name denotes. -/
theorem narrow?_graph_eq_some_iff
    (isGraph : model.get? id = some graph) :
    (Resolved.graph id).narrow? environment model name = some next ↔
      ∃ node,
        graph.DenotesNode environment name node ∧
        ∃ own, graph.nodes.get? node = some own ∧ .node id node own = next := by
  have narrowed :
      (Resolved.graph id).narrow? environment model name =
        (nodeName? environment graph name).bind fun chosen =>
          (graph.nodes.get? chosen).map (.node id chosen) := by
    simp only [narrow?, isGraph, Option.bind_eq_bind, Option.bind_some,
      Option.map_eq_bind]
    rfl
  simp only [narrowed, Option.bind_eq_some_iff, Option.map_eq_some_iff,
    nodeName?_eq_some_iff]

/-- A node is narrowed to one of its effective attributes. -/
theorem narrow?_node_eq_some_iff
    {own : Attributes}
    (isGraph : model.get? id = some graph)
    (hasOwn : graph.nodes.get? node = some own) :
    (Resolved.node id node own).narrow? environment model key = some next ↔
      ∃ effective,
        graph.effectiveNodeAttributes? node = some effective ∧
        ∃ value, effective.get? key = some value ∧ .scalar value = next := by
  have looked :
      (own.get? key).or (model.nodeAttribute? id node key) =
        (graph.nodeDefaults.merge own).get? key := by
    rw [NameMap.get?_merge]
    cases held : own.get? key <;>
      simp [Model.nodeAttribute?, Graph.nodeAttribute?, isGraph, hasOwn, held]
  simp only [narrow?, looked, Graph.effectiveNodeAttributes?, hasOwn,
    Option.map_some, Option.some.injEq, exists_eq_left',
    Option.map_eq_some_iff]

/-- A variable is narrowed to one of its attributes, if it has attributes. -/
theorem narrow?_binding_eq_some_iff
    {value : Value} :
    (Resolved.binding name value).narrow? environment model key = some next ↔
      ∃ attributes,
        value = .attributeList attributes ∧
        ∃ scalar,
          attributes.get? key = some scalar ∧ .scalar scalar = next := by
  cases value <;> simp [narrow?]

/-- What some names lead to, one after another. -/
def follow?
    (environment : Environment)
    (model : Model)
    (current : Resolved)
    (names : List String) :
    Option Resolved :=
  names.foldlM (fun reached name => reached.narrow? environment model name)
    current

theorem follow?_cons_eq_some_iff
    {current : Resolved}
    {names : List String} :
    current.follow? environment model (name :: names) = some resolved ↔
      ∃ next,
        current.narrow? environment model name = some next ∧
        next.follow? environment model names = some resolved := by
  simp only [follow?, List.foldlM_cons, Option.bind_eq_bind,
    Option.bind_eq_some_iff]

/-- A scalar is not narrowed any further. -/
theorem follow?_scalar_eq_some_iff
    {value : Scalar}
    {names : List String} :
    (Resolved.scalar value).follow? environment model names = some resolved ↔
      names = [] ∧ resolved = .scalar value := by
  cases names with
  | nil =>
      simp [follow?, eq_comm]
  | cons first rest =>
      simp [follow?_cons_eq_some_iff, narrow?]

/-! ## What can be followed -/

theorem narrowAll_eq_ok_iff
    {path : Path}
    {current : Resolved}
    {segments : List Identifier} :
    narrowAll environment model path current segments = .ok resolved ↔
      current.follow? environment model (segments.map (·.name)) =
        some resolved := by
  induction segments generalizing current with
  | nil =>
      simp [narrowAll, follow?]
  | cons segment rest inductionHypothesis =>
      rw [List.map_cons, follow?_cons_eq_some_iff, narrowAll]
      split
      · next next narrowed =>
          simp [narrowed, inductionHypothesis]
      · next noneNext =>
          simp [noneNext]

/-- The root of a longer path has to be a variable or a graph. -/
theorem ofPath_eq_ok_iff
    {path : Path}
    {first second : Identifier}
    {rest : List Identifier}
    (areSegments : path.segments = first :: second :: rest) :
    ofPath environment model path = .ok resolved ↔
      ∃ current,
        root? environment model first.name = some current ∧
        current.follow? environment model
          (second.name :: rest.map (·.name)) = some resolved := by
  simp only [ofPath, areSegments]
  cases isRoot : root? environment model first.name with
  | none =>
      simp
  | some current =>
      simp [narrowAll_eq_ok_iff]

theorem follow?_binding_iff
    {value : Value}
    {names : List String} :
    (Resolved.binding name value).follow? environment model (key :: names) =
        some resolved ↔
      ∃ attributes scalar,
        value = .attributeList attributes ∧
        attributes.get? key = some scalar ∧
        names = [] ∧
        resolved = .scalar scalar := by
  rw [follow?_cons_eq_some_iff]
  constructor
  · rintro ⟨next, narrowed, followed⟩
    obtain ⟨attributes, holds, scalar, isKey, rfl⟩ :=
      narrow?_binding_eq_some_iff.mp narrowed
    exact ⟨attributes, scalar, holds, isKey,
      follow?_scalar_eq_some_iff.mp followed⟩
  · rintro ⟨attributes, scalar, holds, isKey, isEnd⟩
    exact ⟨.scalar scalar,
      narrow?_binding_eq_some_iff.mpr ⟨attributes, holds, scalar, isKey, rfl⟩,
      follow?_scalar_eq_some_iff.mpr isEnd⟩

/-- Names that lead from a root to something denote it. -/
theorem denotes_of_follow?
    (named : model.NamedByKey)
    {current : Resolved}
    {names : List String}
    (isRoot : root? environment model name = some current)
    (followed :
      current.follow? environment model (key :: names) = some resolved) :
    Denotes environment model (name :: key :: names) resolved := by
  cases bound : environment.get? name with
  | some found =>
      simp only [root?, bound, Option.some.injEq] at isRoot
      subst isRoot
      obtain ⟨attributes, value, holds, isKey, rfl, rfl⟩ :=
        follow?_binding_iff.mp followed
      exact .attributeOfVariable bound holds isKey
  | none =>
      simp only [root?, bound, Option.map_eq_some_iff] at isRoot
      obtain ⟨graph, isGraph, rfl⟩ := isRoot
      rw [named name graph isGraph] at followed
      obtain ⟨next, narrowed, followed⟩ := follow?_cons_eq_some_iff.mp followed
      obtain ⟨node, denotes, own, hasOwn, rfl⟩ :=
        (narrow?_graph_eq_some_iff isGraph).mp narrowed
      cases names with
      | nil =>
          cases followed
          exact .nodeOfGraph bound isGraph denotes hasOwn
      | cons last later =>
          obtain ⟨next, narrowed, followed⟩ :=
            follow?_cons_eq_some_iff.mp followed
          obtain ⟨effective, hasEffective, value, isKey, rfl⟩ :=
            (narrow?_node_eq_some_iff isGraph hasOwn).mp narrowed
          obtain ⟨rfl, rfl⟩ := follow?_scalar_eq_some_iff.mp followed
          exact .attributeOfNode bound isGraph denotes hasEffective isKey

/-- What some names denote is what they lead to from their root. -/
theorem exists_follow?_of_denotes
    (named : model.NamedByKey)
    {names : List String}
    (denotes : Denotes environment model (name :: names) resolved) :
    ∃ current,
      root? environment model name = some current ∧
      current.follow? environment model names = some resolved := by
  have graphRoot
      {graph : Graph}
      (unbound : environment.get? name = none)
      (isGraph : model.get? name = some graph) :
      root? environment model name = some (.graph name) := by
    simp [root?, unbound, isGraph, named name graph isGraph]
  cases denotes with
  | @attributeOfVariable _ _ found attributes value bound holds isKey =>
      exact ⟨.binding found.name found.value, by simp [root?, bound],
        follow?_binding_iff.mpr ⟨attributes, value, holds, isKey, rfl, rfl⟩⟩
  | nodeOfGraph unbound isGraph denotes hasOwn =>
      refine ⟨.graph name, graphRoot unbound isGraph, ?_⟩
      exact follow?_cons_eq_some_iff.mpr
        ⟨_, (narrow?_graph_eq_some_iff isGraph).mpr
          ⟨_, denotes, _, hasOwn, rfl⟩, rfl⟩
  | attributeOfNode unbound isGraph denotes hasEffective isKey =>
      obtain ⟨own, hasOwn, _⟩ := Option.map_eq_some_iff.mp hasEffective
      refine ⟨.graph name, graphRoot unbound isGraph, ?_⟩
      refine follow?_cons_eq_some_iff.mpr
        ⟨_, (narrow?_graph_eq_some_iff isGraph).mpr
          ⟨_, denotes, own, hasOwn, rfl⟩, ?_⟩
      exact follow?_cons_eq_some_iff.mpr
        ⟨_, (narrow?_node_eq_some_iff isGraph hasOwn).mpr
          ⟨_, hasEffective, _, isKey, rfl⟩, rfl⟩

/-! ## What cannot be followed -/

theorem root?_eq_none_iff :
    root? environment model name = none ↔
      environment.get? name = none ∧ model.get? name = none := by
  cases bound : environment.get? name <;> simp [root?, bound]

/--
Following names stops at one of them.

With fewer names it succeeds, and with more names it fails there.
-/
structure StopsAt
    (environment : Environment)
    (model : Model)
    (current : Resolved)
    (segments : List Identifier)
    (place : Nat)
    (segment : Identifier) :
    Prop where
  isSegment : segments[place]? = some segment
  before :
    ∀ length, length ≤ place →
      ∃ resolved, ∀ path,
        narrowAll environment model path current (segments.take length) =
          .ok resolved
  after :
    ∀ length path, place < length →
      narrowAll environment model path current (segments.take length) =
        .error (.pathResolution path.names segment.name segment.span)

section Stopping

variable
  {current : Resolved}
  {first : Identifier}
  {rest : List Identifier}

theorem StopsAt.here
    (noneNext : current.narrow? environment model first.name = none) :
    StopsAt environment model current (first :: rest) 0 first where
  isSegment := rfl
  before := by
    intro length atMost
    cases Nat.le_zero.mp atMost
    exact ⟨current, fun _ => rfl⟩
  after := by
    intro length path isLonger
    cases length with
    | zero => cases isLonger
    | succ length => simp [narrowAll, noneNext]

theorem StopsAt.later
    {place : Nat}
    {segment : Identifier}
    (narrowed : current.narrow? environment model first.name = some next)
    (stops : StopsAt environment model next rest place segment) :
    StopsAt environment model current (first :: rest) (place + 1) segment where
  isSegment := stops.isSegment
  before := by
    intro length atMost
    cases length with
    | zero =>
        exact ⟨current, fun _ => rfl⟩
    | succ length =>
        obtain ⟨resolved, succeeds⟩ :=
          stops.before length (Nat.le_of_succ_le_succ atMost)
        exact ⟨resolved, fun path => by simp [narrowAll, narrowed, succeeds]⟩
  after := by
    intro length path isLonger
    cases length with
    | zero =>
        cases isLonger
    | succ length =>
        have fails := stops.after length path (Nat.lt_of_succ_lt_succ isLonger)
        simp [narrowAll, narrowed, fails]

/-- All names can be followed, or it stops at one of them. -/
theorem followed_or_stopsAt
    (environment : Environment)
    (model : Model)
    (current : Resolved)
    (segments : List Identifier) :
    (∃ resolved, ∀ path,
      narrowAll environment model path current segments = .ok resolved) ∨
    ∃ place segment,
      StopsAt environment model current segments place segment := by
  induction segments generalizing current with
  | nil =>
      exact .inl ⟨current, fun _ => rfl⟩
  | cons first rest inductionHypothesis =>
      cases narrowed : current.narrow? environment model first.name with
      | none =>
          exact .inr ⟨0, first, .here narrowed⟩
      | some next =>
          rcases inductionHypothesis next with
            ⟨resolved, succeeds⟩ | ⟨place, segment, stops⟩
          · exact .inl
              ⟨resolved, fun path => by simp [narrowAll, narrowed, succeeds]⟩
          · exact .inr ⟨place + 1, segment, stops.later narrowed⟩

end Stopping

section CuttingOff

variable
  {path : Path}
  {first second : Identifier}
  {rest : List Identifier}

theorem ofPath_upTo_of_root
    (areSegments : path.segments = first :: second :: rest)
    {current : Resolved}
    (isRoot : root? environment model first.name = some current)
    (length : Nat) :
    ofPath environment model (path.upTo (length + 2)) =
      narrowAll environment model (path.upTo (length + 2)) current
        ((second :: rest).take (length + 1)) := by
  simp [ofPath, Path.upTo, areSegments, isRoot]

/-- The name of no variable and no graph is where a longer path fails. -/
theorem failsAt_root
    (areSegments : path.segments = first :: second :: rest)
    (noRoot : root? environment model first.name = none) :
    path.FailsAt environment model 0 first := by
  have after :
      ∀ length, 2 ≤ length → 0 < length →
        ofPath environment model (path.upTo length) =
          .error
            (.pathResolution (path.upTo length).names first.name
              first.span) := by
    intro length isLong _
    obtain ⟨length, rfl⟩ := Nat.exists_eq_add_of_le' isLong
    simp [ofPath, Path.upTo, areSegments, noRoot]
  have fails := after path.segments.length (by simp [areSegments])
  rw [Path.upTo_length] at fails
  refine
    { isSegment := by simp [areSegments]
      fails := fails (by simp [areSegments])
      atRoot := ?_
      before := fun _ positive isZero =>
        absurd positive (Nat.not_le.mpr (Nat.lt_succ_of_le isZero))
      after }
  simpa [Path.names, areSegments] using root?_eq_none_iff.mp noRoot

/-- After a root, a path fails where following its later names stops. -/
theorem failsAt_later
    (areSegments : path.segments = first :: second :: rest)
    {current : Resolved}
    (isRoot : root? environment model first.name = some current)
    {place : Nat}
    {segment : Identifier}
    (stops :
      StopsAt environment model current (second :: rest) place segment) :
    path.FailsAt environment model (place + 1) segment := by
  have after :
      ∀ length, 2 ≤ length → place + 1 < length →
        ofPath environment model (path.upTo length) =
          .error
            (.pathResolution (path.upTo length).names segment.name
              segment.span) := by
    intro length isLong isLonger
    obtain ⟨length, rfl⟩ := Nat.exists_eq_add_of_le' isLong
    rw [ofPath_upTo_of_root areSegments isRoot]
    exact stops.after _ _ (Nat.lt_of_succ_lt_succ isLonger)
  have within : place < (second :: rest).length :=
    (List.getElem?_eq_some_iff.mp stops.isSegment).1
  have fails := after path.segments.length (by simp [areSegments])
  rw [Path.upTo_length] at fails
  refine
    { isSegment := by rw [areSegments]; exact stops.isSegment
      fails := fails (by simpa [areSegments] using within)
      atRoot := ?_
      before := ?_
      after }
  · have hasRoot :
        ¬ (environment.get? first.name = none ∧
          model.get? first.name = none) := by
      rw [← root?_eq_none_iff, isRoot]
      nofun
    simpa [Path.names, areSegments] using hasRoot
  · intro length positive atMost
    match length with
    | 1 =>
        exact ⟨_, by simp only [ofPath, Path.upTo, areSegments]; rfl⟩
    | length + 2 =>
        obtain ⟨resolved, succeeds⟩ :=
          stops.before (length + 1) (Nat.le_of_succ_le_succ atMost)
        exact ⟨resolved,
          (ofPath_upTo_of_root areSegments isRoot length).trans
            (succeeds _)⟩

end CuttingOff

/--
A path of two or more names leads to what its names denote.

If they denote nothing, it fails at the first name that cannot be followed.
-/
theorem longer_paths_denote_or_fail
    (environment : Environment)
    (model : Model)
    (path : Path)
    (named : model.NamedByKey)
    (isLong : 2 ≤ path.segments.length) :
    (∀ resolved,
      ofPath environment model path = .ok resolved ↔
        Denotes environment model path.names resolved) ∧
    ((∀ resolved, ¬ Denotes environment model path.names resolved) →
      ∃ place segment, path.FailsAt environment model place segment) := by
  obtain ⟨first, second, rest, areSegments⟩ :
      ∃ first second rest, path.segments = first :: second :: rest := by
    match areSegments : path.segments with
    | [] => simp [areSegments] at isLong
    | [_] => simp [areSegments] at isLong
    | first :: second :: rest => exact ⟨first, second, rest, rfl⟩
  have denotesIff :
      ∀ resolved,
        ofPath environment model path = .ok resolved ↔
          Denotes environment model path.names resolved := by
    intro resolved
    simp only [ofPath_eq_ok_iff areSegments, Path.names, areSegments,
      List.map_cons]
    constructor
    · rintro ⟨current, isRoot, followed⟩
      exact denotes_of_follow? named isRoot followed
    · exact exists_follow?_of_denotes named
  refine ⟨denotesIff, ?_⟩
  intro denotesNothing
  cases isRoot : root? environment model first.name with
  | none =>
      exact ⟨0, first, failsAt_root areSegments isRoot⟩
  | some current =>
      rcases followed_or_stopsAt environment model current (second :: rest) with
        ⟨resolved, succeeds⟩ | ⟨place, segment, stops⟩
      · have succeeded : ofPath environment model path = .ok resolved := by
          simp only [ofPath, areSegments, isRoot, succeeds]
        exact absurd ((denotesIff resolved).mp succeeded)
          (denotesNothing resolved)
      · exact ⟨place + 1, segment,
          failsAt_later areSegments isRoot stops⟩

/-- A graph with a default for its nodes, and variables of two types. -/
theorem longer_paths_denote_or_fail_of_node_variable :
    let single (key word : String) : Attributes :=
      NameMap.ofList [(key, .word word)]
    let graph : Graph :=
      (((Graph.empty "g" true).decorate "a" (single "label" "first")).mention
        "b").addDefaults .node (single "shape" "box")
    let model := Model.empty.add graph
    let environment :=
      (Environment.empty.bind ⟨"x", .node, .nodeReference "b", default⟩).bind
        ⟨"style", .attributes, .attributeList (single "color" "red"), default⟩
    let path (names : List String) : Path :=
      ⟨names.map fun name => ⟨name, default⟩, default⟩
    model.NamedByKey ∧
      Denotes environment model ["g", "x", "shape"] (.scalar (.word "box")) ∧
      Denotes environment model ["style", "color"] (.scalar (.word "red")) ∧
      ∃ place segment,
        (path ["g", "a", "missing", "label"]).FailsAt environment model place
          segment ∧
        segment.name = "missing" := by
  intro single graph model environment path
  have named : model.NamedByKey := Model.NamedByKey.empty.add graph
  have denotes
      (names : List String)
      (isLong : 2 ≤ (path names).segments.length) :=
    longer_paths_denote_or_fail environment model (path names) named isLong
  have failed :
      ofPath environment model (path ["g", "a", "missing", "label"]) =
        .error
          (.pathResolution ["g", "a", "missing", "label"] "missing" default) :=
    rfl
  obtain ⟨denotesIff, failsAt⟩ :=
    denotes ["g", "a", "missing", "label"] (by decide)
  obtain ⟨place, segment, fails⟩ := failsAt fun resolved denoted => by
    cases failed.symm.trans ((denotesIff resolved).mpr denoted)
  refine ⟨named, ((denotes ["g", "x", "shape"] (by decide)).1 _).mp rfl,
    ((denotes ["style", "color"] (by decide)).1 _).mp rfl, place, segment,
    fails, ?_⟩
  have same := failed.symm.trans fails.fails
  injection same with same
  injection same with _ isMissing _
  exact isMissing.symm

end Resolved

end GraphScript
