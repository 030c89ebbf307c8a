import GraphScript.Proofs.Model.Contribution

namespace GraphScript

/-!
# Bodies in the order in which they are written

A body is built with its default declarations first, so a default does not see
the variables that the body declares above it. The result is that of the written
order exactly where this makes no difference to the defaults, or to the first
error.
-/

namespace Draft

/-- Evaluate an item of a body, of whatever kind it is. -/
def applyItem
    (draft : Draft) :
    BodyItem →
    Except EvaluationError Draft
  | .defaults declared => draft.applyDefaults declared
  | .statement written => draft.applyStatement written

/--
The defaults that a body ends with where each declaration is evaluated in its
place.

They are complete where another item fails, as no later declaration is reached.
-/
def defaultsInPlace :
    Draft →
    List BodyItem →
    Except EvaluationError (DefaultTarget → Attributes)
  | draft, [] =>
      .ok draft.graph.defaults
  | draft, .defaults declared :: rest =>
      (draft.applyDefaults declared).bind fun next =>
        next.defaultsInPlace rest
  | draft, .statement written :: rest =>
      match draft.applyStatement written with
      | .ok next => next.defaultsInPlace rest
      | .error _ => .ok draft.graph.defaults

/-- A body in the written order, as defaults that are put into a graph. -/
theorem run_applyItem_eq_settle
    (draft : Draft)
    (items : List BodyItem) :
    run applyItem draft items =
      settle (draft.defaultsInPlace items)
        (run applyStatement draft
          (items.filterMap BodyItem.statement?)) := by
  induction items generalizing draft with
  | nil =>
      rfl
  | cons item rest inductionHypothesis =>
      rw [run_cons]
      cases item with
      | defaults declared =>
          rw [defaultsInPlace, applyItem]
          cases applied : draft.applyDefaults declared with
          | error error =>
              rfl
          | ok next =>
              refine (inductionHypothesis next).trans ?_
              rw [applyDefaults_eq applied, run_withDefaults,
                settle_withDefaults]
              rfl
      | statement written =>
          rw [defaultsInPlace, applyItem]
          simp only [List.filterMap_cons, BodyItem.statement?, run_cons]
          cases draft.applyStatement written with
          | error error =>
              rfl
          | ok next =>
              exact inductionHypothesis next

/-- The error of some defaults, or else the error that comes after them. -/
def errorBefore
    (maps : Except EvaluationError (DefaultTarget → Attributes))
    (later : EvaluationError) :
    EvaluationError :=
  match maps with
  | .ok _ => later
  | .error error => error

/-- The defaults can be read off a finished graph, and so can the first error. -/
theorem settle_eq_settle_iff
    {maps other : Except EvaluationError (DefaultTarget → Attributes)}
    {finished : Except EvaluationError Graph} :
    settle maps finished = settle other finished ↔
      match finished with
      | .ok _ => maps = other
      | .error later => errorBefore maps later = errorBefore other later := by
  cases finished with
  | error later =>
      cases maps <;> cases other <;>
        simp [errorBefore, settle, Except.bind, Except.map]
  | ok graph =>
      have readOff
          {found given : DefaultTarget → Attributes}
          (same : graph.withDefaults found = graph.withDefaults given) :
          found = given := by
        simpa using congrArg Graph.defaults same
      refine ⟨fun same => ?_, congrArg (settle · (.ok graph))⟩
      cases maps <;> cases other <;>
        simp_all [settle, Except.bind, Except.map]
      exact readOff same

end Draft

namespace ModelBuilder

/--
A declaration builds what its body says in the written order exactly where the
defaults come out the same before the other items and between them, or, if
another item fails, where the same error comes first.
-/
theorem build_follows_written_order_iff
    {builder : ModelBuilder}
    {environment : Environment}
    {declaration : GraphDeclaration}
    (unused : builder.declaredAt.get? declaration.name.name = none) :
    let start := opening environment declaration
    (builder.build environment declaration).added declaration =
        (Draft.run Draft.applyItem start declaration.items).map some ↔
      match Draft.run Draft.applyStatement start declaration.statements with
      | .ok _ =>
          Draft.defaultsOf Draft.applyDefaults start declaration.defaults =
            start.defaultsInPlace declaration.items
      | .error later =>
          Draft.errorBefore
              (Draft.defaultsOf Draft.applyDefaults start
                declaration.defaults) later =
            Draft.errorBefore
              (start.defaultsInPlace declaration.items) later := by
  intro start
  rw [added_build _ unused, map_some_eq_iff, Draft.finished_eq_settle,
    Draft.run_applyItem_eq_settle]
  exact Draft.settle_eq_settle_iff

/-- A default declaration does not see the variable above it. -/
theorem build_follows_written_order_iff_of_variable_above :
    let name (text : String) : Identifier := ⟨text, default⟩
    let marked : AttributeList :=
      ⟨[⟨name "k", .assign, .word "v", default⟩], default⟩
    let items : List BodyItem :=
      [.statement (.binding
          ⟨.attributes, name "s", .attributes marked, default⟩),
        .defaults ⟨.graph, .reference (name "s"), default⟩,
        .statement (.node ⟨.list [name "a"], none, default⟩)]
    let declaration : GraphDeclaration :=
      ⟨.directed, name "g", items, default⟩
    let result := empty.build .empty declaration
    let written :=
      Draft.run Draft.applyItem (opening .empty declaration) items
    result.outcome = .error (.unboundName "s" default) ∧
      (∃ graph, written = .ok graph) ∧
      result.added declaration ≠ written.map some := by
  intro name marked items declaration result written
  refine ⟨rfl, ⟨_, rfl⟩, fun same => ?_⟩
  have agree :=
    (@build_follows_written_order_iff empty .empty declaration rfl).1 same
  have impossible :
      (.error (.unboundName "s" default) :
        Except EvaluationError (DefaultTarget → Attributes)) =
        (opening .empty declaration).defaultsInPlace items :=
    agree
  cases impossible

end ModelBuilder

/-! ## Bodies without local names in their defaults -/

/-- No default declaration refers to a name that is bound above it. -/
def BodyItem.Unshadowed :
    List String →
    List BodyItem →
    Prop
  | _, [] =>
      True
  | bound, .defaults declared :: rest =>
      (∀ name, declared.source = .reference name → name.name ∉ bound) ∧
        Unshadowed bound rest
  | bound, .statement (.binding declared) :: rest =>
      Unshadowed (declared.name.name :: bound) rest
  | bound, .statement _ :: rest =>
      Unshadowed bound rest

namespace Draft

/-- A statement keeps the defaults that it finds. -/
theorem defaults_of_applyStatement
    {draft next : Draft}
    {statement : Statement}
    (applied : draft.applyStatement statement = .ok next) :
    next.graph.defaults = draft.graph.defaults := by
  have same :=
    draft.applyStatement_withDefaults draft.graph.defaults statement
  replace same : .ok next =
      (Except.ok next : Except EvaluationError Draft).map
        (·.withDefaults draft.graph.defaults) := by
    rwa [← applied]
  rw [Except.ok.inj same]
  exact Graph.defaults_withDefaults _ _

/-- Where no name is shadowed, the place of a default makes no difference. -/
theorem defaultsOf_eq_defaultsInPlace
    {items : List BodyItem}
    {bound : List String}
    {start draft : Draft}
    (unshadowed : BodyItem.Unshadowed bound items)
    (sameNames :
      ∀ name ∉ bound,
        start.environment.get? name = draft.environment.get? name)
    (sameDefaults : start.graph.defaults = draft.graph.defaults)
    {graph : Graph}
    (succeeds :
      run applyStatement draft (items.filterMap BodyItem.statement?) =
        .ok graph) :
    defaultsOf applyDefaults start (items.filterMap BodyItem.defaults?) =
      draft.defaultsInPlace items := by
  induction items generalizing bound start draft graph with
  | nil =>
      exact congrArg Except.ok sameDefaults
  | cons item rest inductionHypothesis =>
      cases item with
      | defaults declared =>
          have sameSource :
              start.environment.attributesOf declared.source =
                draft.environment.attributesOf declared.source :=
            Environment.attributesOf_congr fun name isReference =>
              sameNames _ (unshadowed.1 name isReference)
          simp only [defaultsOf, List.filterMap_cons, BodyItem.defaults?,
            run_cons, defaultsInPlace, applyDefaults, sameSource]
          cases draft.environment.attributesOf declared.source with
          | error error =>
              rfl
          | ok attributes =>
              have stillSucceeds :=
                (run_withDefaults draft
                  (draft.graph.addDefaults declared.target
                    attributes).defaults
                  (rest.filterMap BodyItem.statement?)).trans
                  (congrArg (Except.map _) succeeds)
              refine inductionHypothesis unshadowed.2 sameNames ?_
                ((congrArg (run applyStatement · _) ?_).trans stillSucceeds)
              · simp only [Graph.addDefaults_eq, sameDefaults,
                  Graph.defaults_withDefaults]
              · simp only [withDefaults, Graph.addDefaults_eq,
                  Graph.defaults_withDefaults]
      | statement written =>
          simp only [List.filterMap_cons, BodyItem.defaults?,
            BodyItem.statement?, run_cons, defaultsInPlace] at succeeds ⊢
          obtain ⟨next, applied, ran⟩ := bind_eq_ok.1 succeeds
          rw [applied]
          have sameAfter :=
            sameDefaults.trans (defaults_of_applyStatement applied).symm
          cases written with
          | binding declared =>
              obtain ⟨environment, isDeclared, isNext⟩ :=
                bind_eq_ok.1 applied
              cases isNext
              refine inductionHypothesis unshadowed ?_ sameAfter ran
              intro name free
              rw [List.mem_cons, not_or] at free
              rw [sameNames name free.2,
                Environment.get?_declareVariable isDeclared
                  (Ne.symm free.1)]
          | node statement =>
              obtain ⟨after, _, isNext⟩ := bind_eq_ok.1 applied
              cases isNext
              exact inductionHypothesis unshadowed sameNames sameAfter ran
          | edge statement =>
              obtain ⟨edge, _, applied⟩ := bind_eq_ok.1 applied
              obtain ⟨after, _, isNext⟩ := bind_eq_ok.1 applied
              cases isNext
              exact inductionHypothesis unshadowed sameNames sameAfter ran

end Draft

namespace ModelBuilder

/--
A body whose other items succeed is built as it is written, if its defaults
refer to no variable that the body declares above them.
-/
theorem build_follows_written_order_of_unshadowed
    {builder : ModelBuilder}
    {environment : Environment}
    {declaration : GraphDeclaration}
    (unused : builder.declaredAt.get? declaration.name.name = none)
    (unshadowed : BodyItem.Unshadowed [] declaration.items)
    {graph : Graph}
    (succeeds :
      Draft.run Draft.applyStatement (opening environment declaration)
        declaration.statements = .ok graph) :
    (builder.build environment declaration).added declaration =
      (Draft.run Draft.applyItem (opening environment declaration)
        declaration.items).map some := by
  rw [added_build _ unused, Draft.finished_eq_settle,
    Draft.run_applyItem_eq_settle, GraphDeclaration.defaults,
    Draft.defaultsOf_eq_defaultsInPlace unshadowed (fun _ _ => rfl) rfl
      succeeds]
  rfl

end ModelBuilder

end GraphScript
