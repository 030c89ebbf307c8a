import GraphScript.Proofs.Model.Contribution
import GraphScript.Proofs.Model.DeclarationErrors

namespace GraphScript

/-!
# Calls of one builder

A builder may be called for any number of graph declarations, of which some
fail, at any point of their bodies. A call leaves the environment as it was. What
it does depends on the calls before it only by the names that they took: a name
that is new is built as by a new builder, and a name that was taken is refused
with the place where it was first taken. The model holds the graphs of the
successful calls, in the order of the calls.
-/

open NameMap

namespace Draft

variable {draft next : Draft} {outer : Environment}

theorem openedOn_of_applyDefaults
    {declaration : DefaultDeclaration}
    (applied : draft.applyDefaults declaration = .ok next)
    (opened : draft.environment.OpenedOn outer) :
    next.environment.OpenedOn outer := by
  obtain ⟨attributes, _, isNext⟩ := bind_eq_ok.1 applied
  cases isNext
  exact opened

/-- A statement changes no scope but the one that was opened for the body. -/
theorem openedOn_of_applyStatement
    {statement : Statement}
    (applied : draft.applyStatement statement = .ok next)
    (opened : draft.environment.OpenedOn outer) :
    next.environment.OpenedOn outer := by
  cases statement with
  | binding declaration =>
      obtain ⟨environment, declared, isNext⟩ := bind_eq_ok.1 applied
      cases isNext
      exact opened.declareVariable declared
  | node statement =>
      obtain ⟨graph, _, isNext⟩ := bind_eq_ok.1 applied
      cases isNext
      exact opened
  | edge statement =>
      obtain ⟨edge, _, applied⟩ := bind_eq_ok.1 applied
      obtain ⟨graph, _, isNext⟩ := bind_eq_ok.1 applied
      cases isNext
      exact opened

end Draft

namespace ModelBuilder

/-! ## One call -/

section Build

variable
  {builder : ModelBuilder}
  (environment : Environment)
  {declaration : GraphDeclaration}

/-- A name that is taken is refused, and nothing is changed. -/
theorem build_of_taken
    {earlier : Span}
    (taken :
      builder.declaredAt.get? declaration.name.name = some earlier) :
    builder.build environment declaration =
      { outcome :=
          .error
            (.duplicateGraph declaration.name.name declaration.name.span
              earlier)
        builder
        environment } := by
  simp only [build, taken]

/-- The environment is the same after a call, at whatever point it failed. -/
theorem environment_build
    (builder : ModelBuilder)
    (environment : Environment)
    (declaration : GraphDeclaration) :
    (builder.build environment declaration).environment = environment := by
  cases isTaken : builder.declaredAt.get? declaration.name.name with
  | some earlier =>
      rw [build_of_taken environment isTaken]
  | none =>
      simp only [build, isTaken]
      apply Environment.OpenedOn.leave
      have opened :
          (opening environment declaration).environment.OpenedOn
            environment :=
        .enter environment _
      exact Draft.complete_keeps
        (fun _ _ _ => Draft.openedOn_of_applyDefaults)
        (fun _ _ _ => Draft.openedOn_of_applyStatement)
        opened declaration

section Unused

variable
  (unused : builder.declaredAt.get? declaration.name.name = none)

include unused

/-- A call for a new name succeeds where the body of its graph does. -/
theorem outcome_build_of_unused :
    (builder.build environment declaration).outcome =
      ((opening environment declaration).finished declaration).map
        fun _ => () := by
  simp only [build, unused, Draft.finished, opening]
  generalize Draft.complete _ declaration = completed
  rcases completed with ⟨outcome, last⟩
  cases outcome <;> rfl

/-- A call for a new name takes it, even if the body of its graph fails. -/
theorem declaredAt_build_of_unused :
    (builder.build environment declaration).builder.declaredAt =
      builder.declaredAt.insert declaration.name.name
        declaration.name.span := by
  simp only [build, unused]

/-- A call for a new name adds the graph of its body, if there is one. -/
theorem model_build_of_unused :
    (builder.build environment declaration).builder.model =
      match (opening environment declaration).finished declaration with
      | .ok graph => builder.model.add graph
      | .error _ => builder.model := by
  simp only [build, unused, Draft.finished, opening]
  generalize Draft.complete _ declaration = completed
  rcases completed with ⟨outcome, last⟩
  cases outcome <;> rfl

end Unused

end Build

/-! ## Many calls -/

/-- A call of a builder: a graph declaration, and the scopes it is made in. -/
structure Call where
  environment : Environment
  declaration : GraphDeclaration

namespace Call

/-- The name that a call asks for. -/
def name
    (call : Call) :
    String :=
  call.declaration.name.name

/-- Where that name is written. -/
def nameSpan
    (call : Call) :
    Span :=
  call.declaration.name.span

/-- The graph that the body of a call describes, or why it describes none. -/
def body
    (call : Call) :
    Except EvaluationError Graph :=
  (opening call.environment call.declaration).finished call.declaration

/-- Where the first of some calls with the given name has that name. -/
def firstSpan?
    (calls : List Call)
    (name : String) :
    Option Span :=
  (calls.find? (·.name = name)).map (·.nameSpan)

end Call

/-- What a call leaves. -/
def call
    (builder : ModelBuilder)
    (made : Call) :
    Result :=
  builder.build made.environment made.declaration

/-- The builder after some calls, whether they succeeded or not. -/
def after
    (builder : ModelBuilder)
    (calls : List Call) :
    ModelBuilder :=
  calls.foldl (fun reached made => (reached.call made).builder) builder

/-- The graph that a successful call leaves under its name. -/
def Result.success?
    (result : Result)
    (made : Call) :
    Option (String × Graph) :=
  match result.outcome with
  | .ok () => (result.builder.model.get? made.name).map (made.name, ·)
  | .error _ => none

theorem Result.fst_of_success?
    {result : Result}
    {made : Call}
    {entry : String × Graph}
    (succeeded : result.success? made = some entry) :
    entry.1 = made.name := by
  unfold success? at succeeded
  split at succeeded
  · obtain ⟨graph, _, rfl⟩ := Option.map_eq_some_iff.1 succeeded
    rfl
  · cases succeeded

/-- The graphs of the calls that succeed, each one as its call leaves it. -/
def successes
    (builder : ModelBuilder) :
    List Call →
    List (String × Graph)
  | [] =>
      []
  | made :: rest =>
      let result := builder.call made
      (result.success? made).toList ++ result.builder.successes rest

@[simp] theorem after_nil
    (builder : ModelBuilder) :
    builder.after [] = builder :=
  rfl

@[simp] theorem after_cons
    (builder : ModelBuilder)
    (made : Call)
    (rest : List Call) :
    builder.after (made :: rest) = (builder.call made).builder.after rest :=
  rfl

theorem after_append
    (builder : ModelBuilder)
    (first second : List Call) :
    builder.after (first ++ second) = (builder.after first).after second := by
  simp [after]

namespace Call

theorem firstSpan?_append_singleton
    (calls : List Call)
    (made : Call)
    (name : String) :
    firstSpan? (calls ++ [made]) name =
      (firstSpan? calls name).or
        (if made.name = name then some made.nameSpan else none) := by
  unfold firstSpan?
  rw [List.find?_append]
  cases calls.find? (·.name = name) with
  | some first =>
      rfl
  | none =>
      by_cases same : made.name = name <;> simp [same]

theorem firstSpan?_eq_none_iff
    {calls : List Call}
    {name : String} :
    firstSpan? calls name = none ↔ ∀ made ∈ calls, made.name ≠ name := by
  simp [firstSpan?]

end Call

section Call

variable
  {builder : ModelBuilder}
  {made : Call}

/-- A call for a name that is taken changes nothing. -/
theorem call_of_taken
    {earlier : Span}
    (taken : builder.declaredAt.get? made.name = some earlier) :
    builder.call made =
      { outcome :=
          .error (.duplicateGraph made.name made.nameSpan earlier)
        builder
        environment := made.environment } :=
  build_of_taken made.environment taken

/-- A call for a new name succeeds where its body describes a graph. -/
theorem outcome_call_of_unused
    (unused : builder.declaredAt.get? made.name = none) :
    (builder.call made).outcome = made.body.map fun _ => () :=
  outcome_build_of_unused made.environment unused

/-- A call for a new name leaves the graph that its body describes. -/
theorem success?_call_of_unused
    (unused : builder.declaredAt.get? made.name = none) :
    (builder.call made).success? made =
      made.body.toOption.map (made.name, ·) := by
  have model : (builder.call made).builder.model = _ :=
    model_build_of_unused made.environment unused
  unfold Result.success?
  rw [outcome_call_of_unused unused, model]
  unfold Call.body
  cases finished :
      (opening made.environment made.declaration).finished
        made.declaration with
  | error error =>
      rfl
  | ok graph =>
      have named : graph.id = made.name := id_of_finished finished
      simp [Except.map, Except.toOption, Model.add, Model.get?, named,
        get?_insert]

/-- A call that succeeds leaves the graph that its body describes. -/
theorem success_of_call
    (succeeded : (builder.call made).outcome = .ok ()) :
    ∃ graph,
      made.body = .ok graph ∧
        (builder.call made).success? made = some (made.name, graph) := by
  cases isTaken : builder.declaredAt.get? made.name with
  | some first =>
      rw [call_of_taken isTaken] at succeeded
      cases succeeded
  | none =>
      rw [outcome_call_of_unused isTaken] at succeeded
      obtain ⟨graph, described, _⟩ := map_eq_ok.1 succeeded
      refine ⟨graph, described, ?_⟩
      rw [success?_call_of_unused isTaken, described]
      rfl

/-- What is refused because its name is taken was asked for before. -/
theorem outcome_call_eq_duplicateGraph_iff
    {name : String}
    {span previous : Span} :
    (builder.call made).outcome =
        .error (.duplicateGraph name span previous) ↔
      name = made.name ∧
        span = made.nameSpan ∧
        builder.declaredAt.get? made.name = some previous := by
  cases isTaken : builder.declaredAt.get? made.name with
  | some earlier =>
      rw [call_of_taken isTaken]
      simp [eq_comm]
  | none =>
      rw [outcome_call_of_unused isTaken]
      simp only [reduceCtorEq, and_false, iff_false]
      intro refused
      have bodyErrors :
          DeclarationErrorsOnly (made.body.map fun _ => ()) :=
        (Draft.finished_declarationErrorsOnly _ _).map _
      have arises := bodyErrors _ refused
      cases arises

end Call

/--
What a builder knows of the calls before.

A name is taken from the first call for it on, and a graph of the model has a
name that is taken.
-/
structure Remembers
    (builder : ModelBuilder)
    (calls : List Call) :
    Prop where
  declaredAt :
    ∀ name, builder.declaredAt.get? name = Call.firstSpan? calls name
  taken :
    ∀ name ∈ builder.model.graphs.keys,
      builder.declaredAt.get? name ≠ none

namespace Remembers

variable
  {builder : ModelBuilder}
  {calls : List Call}

theorem empty :
    ModelBuilder.empty.Remembers [] := by
  constructor
  · intro name
    rfl
  · intro name member
    cases member

/-- A call for a new name adds the graph that its body describes, if any. -/
theorem entries_call_of_unused
    (remembers : builder.Remembers calls)
    {made : Call}
    (unused : builder.declaredAt.get? made.name = none) :
    (builder.call made).builder.model.graphs.entries =
      builder.model.graphs.entries ++
        ((builder.call made).success? made).toList := by
  have isNew : made.name ∉ builder.model.graphs.keys := by
    intro member
    exact remembers.taken made.name member unused
  have model : (builder.call made).builder.model = _ :=
    model_build_of_unused made.environment unused
  rw [success?_call_of_unused unused, model]
  unfold Call.body
  cases finished :
      (opening made.environment made.declaration).finished
        made.declaration with
  | error error =>
      simp [Except.toOption]
  | ok graph =>
      have named : graph.id = made.name := id_of_finished finished
      simp [Except.toOption, Model.add, named, entries_insert_of_new isNew]

/-- The model grows by the graph of the call, if the call succeeds. -/
theorem entries_call
    (remembers : builder.Remembers calls)
    (made : Call) :
    (builder.call made).builder.model.graphs.entries =
      builder.model.graphs.entries ++
        ((builder.call made).success? made).toList := by
  cases isTaken : builder.declaredAt.get? made.name with
  | none =>
      exact remembers.entries_call_of_unused isTaken
  | some earlier =>
      rw [call_of_taken isTaken]
      simp [Result.success?]

theorem mem_keys_call
    (remembers : builder.Remembers calls)
    (made : Call)
    {name : String}
    (member : name ∈ (builder.call made).builder.model.graphs.keys) :
    name ∈ builder.model.graphs.keys ∨ name = made.name := by
  unfold keys at member
  rw [remembers.entries_call, List.map_append, List.mem_append] at member
  apply member.imp_right
  intro added
  obtain ⟨entry, isEntry, rfl⟩ := List.mem_map.1 added
  exact Result.fst_of_success? (Option.mem_toList.1 isEntry)

/-- The name of a call is taken from the call on, whether it succeeds or not. -/
theorem call
    (remembers : builder.Remembers calls)
    (made : Call) :
    (builder.call made).builder.Remembers (calls ++ [made]) := by
  have known := remembers.declaredAt made.name
  cases isTaken : builder.declaredAt.get? made.name with
  | some earlier =>
      rw [isTaken] at known
      rw [call_of_taken isTaken]
      refine ⟨fun name => ?_, remembers.taken⟩
      rw [remembers.declaredAt, Call.firstSpan?_append_singleton]
      by_cases same : made.name = name
      · subst same
        simp [← known]
      · simp [same]
  | none =>
      rw [isTaken] at known
      have declaredAt :
          (builder.call made).builder.declaredAt =
            builder.declaredAt.insert made.name made.nameSpan :=
        declaredAt_build_of_unused made.environment isTaken
      constructor
      · intro name
        rw [declaredAt, get?_insert, remembers.declaredAt,
          Call.firstSpan?_append_singleton]
        by_cases same : made.name = name
        · subst same
          simp [← known]
        · simp [same]
      · intro name member
        rw [declaredAt, get?_insert]
        by_cases same : made.name = name
        · simp [same]
        · rw [if_neg same]
          have inEither := remembers.mem_keys_call made member
          exact remembers.taken name (inEither.resolve_right (Ne.symm same))

/-- The builder after any further calls. -/
theorem after
    (remembers : builder.Remembers calls)
    (later : List Call) :
    (builder.after later).Remembers (calls ++ later) := by
  induction later generalizing builder calls with
  | nil =>
      simpa using remembers
  | cons made rest inductionHypothesis =>
      simpa using inductionHypothesis (remembers.call made)

/-- The model grows by the graphs of the calls that succeed, in their order. -/
theorem entries_after
    (remembers : builder.Remembers calls)
    (later : List Call) :
    (builder.after later).model.graphs.entries =
      builder.model.graphs.entries ++ builder.successes later := by
  induction later generalizing builder calls with
  | nil =>
      simp [successes]
  | cons made rest inductionHypothesis =>
      rw [after_cons, inductionHypothesis (remembers.call made),
        remembers.entries_call, successes, List.append_assoc]

end Remembers

/-- What a call does behind some earlier calls of the same builder. -/
structure IsolatedBehind
    (earlier : List Call)
    (made : Call) :
    Prop where
  /-- All scopes and variables are as they were, also where the call fails. -/
  environment :
    ((empty.after earlier).call made).environment = made.environment
  /-- The model holds what the successful calls left, in their order. -/
  model :
    (empty.after earlier).model.graphs.entries = empty.successes earlier
  /-- A call that succeeds leaves one graph, which has the name it asks for. -/
  success :
    ((empty.after earlier).call made).outcome = .ok () →
      ∃ graph,
        graph.id = made.name ∧
          ((empty.after earlier).call made).success? made =
            some (made.name, graph)
  /-- No graph is taken out of the model or replaced by later calls. -/
  kept :
    ∀ later,
      (empty.after earlier).model.graphs.entries <+:
        (empty.after (earlier ++ later)).model.graphs.entries
  /-- A name is refused where an earlier call asked for it, with the first place. -/
  duplicate :
    ∀ name span previous,
      ((empty.after earlier).call made).outcome =
          .error (.duplicateGraph name span previous) ↔
        name = made.name ∧
          span = made.nameSpan ∧
          Call.firstSpan? earlier made.name = some previous
  /-- A name for which no earlier call asked is built as by a new builder. -/
  unused :
    (∀ other ∈ earlier, other.name ≠ made.name) →
      ((empty.after earlier).call made).outcome =
          (empty.call made).outcome ∧
        ((empty.after earlier).call made).success? made =
          (empty.call made).success? made

/--
A call of a builder changes nothing but the model and the names that are taken,
and the calls before it matter to it only by the names that they took.
-/
theorem calls_are_isolated
    (earlier : List Call)
    (made : Call) :
    IsolatedBehind earlier made := by
  have remembers : (empty.after earlier).Remembers earlier :=
    Remembers.empty.after earlier
  constructor
  case environment =>
    exact environment_build _ _ _
  case model =>
    exact Remembers.empty.entries_after earlier
  case kept =>
    intro later
    have grown := remembers.entries_after later
    rw [after_append]
    exact ⟨_, grown.symm⟩
  case success =>
    intro succeeded
    obtain ⟨graph, described, success⟩ := success_of_call succeeded
    exact ⟨graph, id_of_finished described, success⟩
  case duplicate =>
    intro name span previous
    rw [← remembers.declaredAt]
    exact outcome_call_eq_duplicateGraph_iff
  case unused =>
    intro isNew
    have unused : (empty.after earlier).declaredAt.get? made.name = none := by
      rw [remembers.declaredAt]
      exact Call.firstSpan?_eq_none_iff.2 isNew
    have unusedAlone : empty.declaredAt.get? made.name = none :=
      rfl
    rw [outcome_call_of_unused unused, outcome_call_of_unused unusedAlone,
      success?_call_of_unused unused, success?_call_of_unused unusedAlone]
    exact ⟨rfl, rfl⟩

/-- A failed call for a name, a successful one for another, and two more calls. -/
theorem calls_are_isolated_of_failure :
    let name (text : String) (column : Nat) : Identifier :=
      ⟨text, .point ⟨1, column⟩⟩
    let asked (graph : Identifier) (items : List BodyItem) : Call :=
      ⟨.empty, ⟨.directed, graph, items, default⟩⟩
    let declared : BodyItem :=
      .statement (.binding
        ⟨.node, name "x" 20, .nodes [name "a" 24], default⟩)
    let mismatch : BodyItem :=
      .statement (.edge
        ⟨name "x" 30, .undirected, name "b" 35, none, default⟩)
    let mention : BodyItem :=
      .statement (.node ⟨.list [name "x" 40], none, default⟩)
    let earlier :=
      [asked (name "g" 16) [declared, mention, mismatch],
        asked (name "h" 50) [mention]]
    let again := asked (name "g" 70) []
    let other := asked (name "k" 90) [mention]
    (empty.after earlier).model.graphs.keys = ["h"] ∧
      ((empty.after earlier).call again).outcome =
        .error
          (.duplicateGraph "g" (.point ⟨1, 70⟩) (.point ⟨1, 16⟩)) ∧
      ((empty.after earlier).call other).outcome =
        (empty.call other).outcome := by
  intro name asked declared mismatch mention earlier again other
  have refused :=
    ((calls_are_isolated earlier again).duplicate "g" (.point ⟨1, 70⟩)
      (.point ⟨1, 16⟩)).2 ⟨rfl, rfl, rfl⟩
  have isNew : ∀ made ∈ earlier, made.name ≠ other.name := by
    simp [earlier, other, asked, name, Call.name]
  have alone := (calls_are_isolated earlier other).unused isNew
  exact ⟨rfl, refused, alone.1⟩

end ModelBuilder

end GraphScript
