import GraphScript.Evaluation
import GraphScript.Proofs.Model.Isolation

namespace GraphScript

/-!
# Steps that succeed one after another

Variables, graphs and commands are each worked off in their order, up to the
first one that fails. Such a run is a succession of steps: either it reaches the
last item, or it stops in front of the first item whose step fails.
-/

/--
Items that are worked off one after another, each in the state that the one
before it leaves.
-/
inductive Succession
    {State Item : Type}
    (Step : State → Item → State → Prop) :
    State →
    List Item →
    State →
    Prop where
  | nil
      (state : State) :
      Succession Step state [] state
  | cons
      {state middle final : State}
      {item : Item}
      {rest : List Item}
      (first : Step state item middle)
      (later : Succession Step middle rest final) :
      Succession Step state (item :: rest) final

namespace Succession

variable
  {State Item Error : Type}
  {Step : State → Item → State → Prop}

/-- Where every step succeeds or fails, some items succeed up to the first failure. -/
theorem complete_or_stopped
    {Fails : State → Item → Error → Prop}
    (decides :
      ∀ state item,
        (∃ next, Step state item next) ∨ ∃ error, Fails state item error)
    (state : State)
    (items : List Item) :
    (∃ final, Succession Step state items final) ∨
      ∃ done failing left reached error,
        items = done ++ failing :: left ∧
          Succession Step state done reached ∧
          Fails reached failing error := by
  induction items generalizing state with
  | nil =>
      exact .inl ⟨state, .nil state⟩
  | cons item rest inductionHypothesis =>
      rcases decides state item with ⟨middle, first⟩ | ⟨error, fails⟩
      · rcases inductionHypothesis middle with
          ⟨final, later⟩ |
            ⟨done, failing, left, reached, error, rfl, later, fails⟩
        · exact .inl ⟨final, .cons first later⟩
        · exact .inr
            ⟨item :: done, failing, left, reached, error, rfl,
              .cons first later, fails⟩
      · exact .inr
          ⟨[], item, rest, state, error, rfl, .nil state, fails⟩

/-- What every step keeps, a succession of steps keeps. -/
theorem keeps
    (Keeps : State → Prop)
    (step :
      ∀ {state item next}, Step state item next → Keeps state → Keeps next)
    {state final : State}
    {items : List Item}
    (succession : Succession Step state items final)
    (initial : Keeps state) :
    Keeps final := by
  induction succession with
  | nil state =>
      exact initial
  | cons first _ inductionHypothesis =>
      exact inductionHypothesis (step first initial)

/-- The steps of related states lead to related states. -/
theorem simulated
    {Other : Type}
    {OtherStep : Other → Item → Other → Prop}
    {Related : State → Other → Prop}
    {state final : State}
    {items : List Item}
    (succession : Succession Step state items final)
    (simulates :
      ∀ item ∈ items, ∀ {state next other},
        Related state other →
        Step state item next →
        ∃ otherNext, OtherStep other item otherNext ∧ Related next otherNext)
    {other : Other}
    (related : Related state other) :
    ∃ otherFinal,
      Succession OtherStep other items otherFinal ∧
        Related final otherFinal := by
  induction succession generalizing other with
  | nil state =>
      exact ⟨other, .nil other, related⟩
  | @cons state middle final item rest first _ inductionHypothesis =>
      obtain ⟨otherMiddle, otherFirst, relatedMiddle⟩ :=
        simulates item List.mem_cons_self related first
      obtain ⟨otherFinal, otherLater, relatedFinal⟩ :=
        inductionHypothesis
          (fun later member =>
            simulates later (List.mem_cons_of_mem _ member))
          relatedMiddle
      exact ⟨otherFinal, .cons otherFirst otherLater, relatedFinal⟩

/-- Steps that are also steps of another kind make the same succession. -/
theorem imp
    {OtherStep : State → Item → State → Prop}
    {state final : State}
    {items : List Item}
    (succession : Succession Step state items final)
    (implies :
      ∀ item ∈ items, ∀ {state next},
        Step state item next → OtherStep state item next) :
    Succession OtherStep state items final := by
  induction succession with
  | nil state =>
      exact .nil state
  | cons first _ inductionHypothesis =>
      apply Succession.cons (implies _ List.mem_cons_self first)
      exact inductionHypothesis fun later member =>
        implies later (List.mem_cons_of_mem _ member)

/-- Two successions in a row are one. -/
theorem append
    {state middle final : State}
    {done left : List Item}
    (earlier : Succession Step state done middle)
    (later : Succession Step middle left final) :
    Succession Step state (done ++ left) final := by
  induction earlier with
  | nil state =>
      exact later
  | cons first _ inductionHypothesis =>
      exact .cons first (inductionHypothesis later)

/-- A succession over two lists passes through a state between them. -/
theorem split
    {state final : State}
    {done left : List Item}
    (whole : Succession Step state (done ++ left) final) :
    ∃ middle,
      Succession Step state done middle ∧
        Succession Step middle left final := by
  induction done generalizing state with
  | nil =>
      exact ⟨state, .nil state, whole⟩
  | cons item rest inductionHypothesis =>
      cases whole with
      | cons first later =>
          obtain ⟨middle, earlier, last⟩ := inductionHypothesis later
          exact ⟨middle, .cons first earlier, last⟩

end Succession

/-! ## Variables -/

namespace Environment

/-- Whether some variables are all declared, one after another. -/
def Declares :
    Environment →
    List VariableDeclaration →
    Environment →
    Prop :=
  Succession fun environment declaration next =>
    environment.declareVariable declaration = .ok next

variable
  {environment reached : Environment}
  {done : List VariableDeclaration}

/-- What is declared in one succession is declared first by the whole phase. -/
theorem Declares.declareAll_append
    (declares : environment.Declares done reached)
    (left : List VariableDeclaration) :
    environment.declareAll (done ++ left) = reached.declareAll left := by
  induction declares with
  | nil environment =>
      rfl
  | cons first _ inductionHypothesis =>
      rw [List.cons_append, declareAll, List.foldlM_cons, first]
      exact inductionHypothesis

/-- Declarations that follow one another are what the evaluation goes through. -/
theorem Declares.declareAll
    (declares : environment.Declares done reached) :
    environment.declareAll done = .ok reached := by
  have whole := declares.declareAll_append []
  rw [List.append_nil] at whole
  exact whole

/-- The evaluation ends with the first declaration that fails. -/
theorem Declares.declareAll_of_error
    (declares : environment.Declares done reached)
    {failing : VariableDeclaration}
    {error : EvaluationError}
    (fails : reached.declareVariable failing = .error error)
    (left : List VariableDeclaration) :
    environment.declareAll (done ++ failing :: left) = .error error := by
  rw [declares.declareAll_append, Environment.declareAll, List.foldlM_cons,
    fails]
  rfl

/-- Either all declarations follow one another, or a first one fails. -/
theorem declares_or_fails
    (environment : Environment)
    (declarations : List VariableDeclaration) :
    (∃ final, environment.Declares declarations final) ∨
      ∃ done failing left reached error,
        declarations = done ++ failing :: left ∧
          environment.Declares done reached ∧
          reached.declareVariable failing = .error error := by
  apply Succession.complete_or_stopped
  intro state declaration
  cases evaluated : state.declareVariable declaration with
  | ok next => exact .inl ⟨next, rfl⟩
  | error error => exact .inr ⟨error, rfl⟩

/-- Declarations that are evaluated follow one another. -/
theorem declares_of_declareAll
    {declarations : List VariableDeclaration}
    (declared : environment.declareAll declarations = .ok reached) :
    environment.Declares declarations reached := by
  rcases environment.declares_or_fails declarations with
    ⟨final, declares⟩ | ⟨_, _, left, _, _, rfl, declares, fails⟩
  · rw [declares.declareAll] at declared
    cases declared
    exact declares
  · rw [declares.declareAll_of_error fails left] at declared
    cases declared

end Environment

/-! ## Graphs -/

namespace ModelBuilder

/-- Whether some graphs are all built, each in the same environment. -/
def Builds
    (builder : ModelBuilder)
    (environment : Environment) :
    List GraphDeclaration →
    ModelBuilder →
    Prop :=
  Succession
    (fun builder declaration next =>
      builder.build environment declaration = ⟨.ok (), next, environment⟩)
    builder

variable
  {environment : Environment}
  {builder reached : ModelBuilder}
  {done : List GraphDeclaration}

theorem Builds.buildAll_append
    (builds : builder.Builds environment done reached)
    (left : List GraphDeclaration) :
    builder.buildAll environment (done ++ left) =
      reached.buildAll environment left := by
  induction builds with
  | nil builder =>
      rfl
  | cons first _ inductionHypothesis =>
      simp only [List.cons_append, buildAll, first]
      exact inductionHypothesis

/-- Graphs that follow one another are what the builder goes through. -/
theorem Builds.buildAll
    (builds : builder.Builds environment done reached) :
    builder.buildAll environment done = ⟨.ok (), reached, environment⟩ := by
  have whole := builds.buildAll_append []
  rw [List.append_nil] at whole
  exact whole

/-- The builder ends with the first graph that fails. -/
theorem Builds.outcome_buildAll_of_error
    (builds : builder.Builds environment done reached)
    {failing : GraphDeclaration}
    {error : EvaluationError}
    (fails : (reached.build environment failing).outcome = .error error)
    (left : List GraphDeclaration) :
    (builder.buildAll environment (done ++ failing :: left)).outcome =
      .error error := by
  rw [builds.buildAll_append, ModelBuilder.buildAll]
  simp only [fails]

/-- Either all graphs follow one another, or a first one fails. -/
theorem builds_or_fails
    (builder : ModelBuilder)
    (environment : Environment)
    (declarations : List GraphDeclaration) :
    (∃ final, builder.Builds environment declarations final) ∨
      ∃ done failing left reached error,
        declarations = done ++ failing :: left ∧
          builder.Builds environment done reached ∧
          (reached.build environment failing).outcome = .error error := by
  apply Succession.complete_or_stopped
  intro state declaration
  have kept := state.environment_build environment declaration
  rcases built : state.build environment declaration with
    ⟨outcome, next, left⟩
  rw [built] at kept
  cases kept
  cases outcome with
  | ok _ => exact .inl ⟨next, rfl⟩
  | error error => exact .inr ⟨error, rfl⟩

end ModelBuilder

end GraphScript
