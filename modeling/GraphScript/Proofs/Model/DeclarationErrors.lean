import GraphScript.Proofs.Model.Drafts
import GraphScript.Proofs.Model.Outcome

namespace GraphScript

/-!
# What declarations can report

The declarations of variables and the bodies of graphs report faults of names,
values, attributes and directions. That a name was given to two graphs is found
before a body is looked at, and the errors of commands belong to a later phase.
-/

/-- Whether an error arises from what stands inside a declaration. -/
def EvaluationError.arisesInDeclarations :
    EvaluationError →
    Bool
  | .redeclaration .. => true
  | .unboundName .. => true
  | .attributeKeyConflict .. => true
  | .directionMismatch .. => true
  | .typeMismatch .. => true
  | .duplicateGraph .. => false
  | .pathResolution .. => false
  | .unknownCommand .. => false
  | .commandFailed .. => false

/-- Whether a computation fails only with errors of declarations. -/
abbrev DeclarationErrorsOnly
    {α : Type}
    (computed : Except EvaluationError α) :
    Prop :=
  FailsOnly (·.arisesInDeclarations = true) computed

/-- Whether an error arises from the use of a name, a value or an operator. -/
def EvaluationError.arisesInUses :
    EvaluationError →
    Bool
  | .unboundName .. => true
  | .attributeKeyConflict .. => true
  | .directionMismatch .. => true
  | .typeMismatch .. => true
  | _ => false

/-- Whether a computation fails only with errors of uses. -/
abbrev UseErrorsOnly
    {α : Type}
    (computed : Except EvaluationError α) :
    Prop :=
  FailsOnly (·.arisesInUses = true) computed

/--
What may go wrong in a use may go wrong in a declaration, which is full of uses.
-/
theorem EvaluationError.arisesInDeclarations_of_uses
    (error : EvaluationError)
    (arises : error.arisesInUses = true) :
    error.arisesInDeclarations = true := by
  cases error <;> first | rfl | cases arises

/-- What fails only as a use does fails only as a declaration does. -/
theorem UseErrorsOnly.inDeclarations
    {α : Type}
    {computed : Except EvaluationError α}
    (fails : UseErrorsOnly computed) :
    DeclarationErrorsOnly computed :=
  fails.imp EvaluationError.arisesInDeclarations_of_uses

namespace Attributes

/-- Writing attributes into a set fails at most as a use. -/
theorem addWritten_useErrorsOnly
    (built : Attributes)
    (listed : List Attribute) :
    UseErrorsOnly (addWritten built listed) := by
  induction listed generalizing built with
  | nil =>
      exact .ok built
  | cons written rest inductionHypothesis =>
      rw [addWritten]
      split
      · exact .error rfl
      · exact inductionHypothesis _

end Attributes

namespace Environment

variable (environment : Environment)

/-- Looking up a name fails at most as a use. -/
theorem lookup_useErrorsOnly
    (name : Identifier) :
    UseErrorsOnly (environment.lookup name) := by
  unfold lookup
  split
  · exact .ok _
  · exact .error rfl

/-- Reading attributes from a list or a variable fails at most as a use. -/
theorem attributesOf_useErrorsOnly
    (source : AttributeSource) :
    UseErrorsOnly (environment.attributesOf source) := by
  cases source with
  | list attributes =>
      exact Attributes.addWritten_useErrorsOnly _ _
  | reference name =>
      apply FailsOnly.bind (environment.lookup_useErrorsOnly name)
      intro found
      split
      · exact .ok _
      · exact .error rfl

/-- Attributes that may be left out fail at most as a use. -/
theorem optionalAttributes_useErrorsOnly
    (source : Option AttributeSource) :
    UseErrorsOnly (environment.optionalAttributes source) := by
  cases source with
  | none =>
      exact .ok _
  | some written =>
      exact environment.attributesOf_useErrorsOnly written

/-- Reading a name as one node fails at most as a use. -/
theorem nodeOf_useErrorsOnly
    (name : Identifier) :
    UseErrorsOnly (environment.nodeOf name) := by
  unfold nodeOf
  split
  · exact .ok _
  · exact .error rfl
  · exact .ok _

/-- Building an edge fails at most as a use. -/
theorem edgeOf_useErrorsOnly
    (statement : EdgeStatement) :
    UseErrorsOnly (environment.edgeOf statement) := by
  apply FailsOnly.bind (environment.nodeOf_useErrorsOnly _)
  intro left
  apply FailsOnly.bind (environment.nodeOf_useErrorsOnly _)
  intro right
  apply FailsOnly.bind (environment.optionalAttributes_useErrorsOnly _)
  intro attributes
  exact .ok _

/-- Copying a variable fails at most as a use. -/
theorem copyOf_useErrorsOnly
    (name : Identifier)
    (declaredType : VariableType) :
    UseErrorsOnly (environment.copyOf name declaredType) := by
  apply FailsOnly.bind (environment.lookup_useErrorsOnly name)
  intro found
  split
  · exact .ok _
  · exact .error rfl

/-- Evaluating what a variable is declared as fails at most as a use. -/
theorem valueOf_useErrorsOnly
    (declaration : VariableDeclaration) :
    UseErrorsOnly (environment.valueOf declaration) := by
  unfold valueOf
  split
  · split
    · exact .ok _
    · exact environment.copyOf_useErrorsOnly _ _
  · exact environment.copyOf_useErrorsOnly _ _
  · exact .ok _
  · exact (FailsOnly.mapM environment.edgeOf_useErrorsOnly _).map _
  · exact (Attributes.addWritten_useErrorsOnly _ _).map _
  · exact .error rfl

/-- Checking that a name is free fails at most with a redeclaration. -/
theorem checkUnbound_declarationErrorsOnly
    (name : Identifier) :
    DeclarationErrorsOnly (environment.checkUnbound name) := by
  unfold checkUnbound
  split
  · exact .error rfl
  · exact .ok _

/-- Declaring a variable fails at most as a declaration. -/
theorem declareVariable_declarationErrorsOnly
    (declaration : VariableDeclaration) :
    DeclarationErrorsOnly (environment.declareVariable declaration) := by
  apply FailsOnly.bind (environment.checkUnbound_declarationErrorsOnly _)
  intro _
  apply FailsOnly.bind (environment.valueOf_useErrorsOnly _).inDeclarations
  intro value
  apply FailsOnly.bind (environment.checkUnbound_declarationErrorsOnly _)
  intro _
  split
  · exact .ok _
  · exact .error rfl

end Environment

/-- Adding an edge fails at most as a use. -/
theorem Graph.addEdge_useErrorsOnly
    (graph : Graph)
    (edge : Edge)
    (span : Span) :
    UseErrorsOnly (graph.addEdge edge span) := by
  unfold addEdge
  split
  · exact .ok _
  · exact .error rfl

namespace Draft

variable (draft : Draft)

/-- Adding the nodes of a statement fails at most as a use. -/
theorem afterNode_useErrorsOnly
    (statement : NodeStatement) :
    UseErrorsOnly (draft.afterNode statement) := by
  apply FailsOnly.bind
    (draft.environment.optionalAttributes_useErrorsOnly _)
  intro attributes
  split
  · exact .ok _
  · apply FailsOnly.bind (draft.environment.lookup_useErrorsOnly _)
    intro found
    split
    · exact .ok _
    · exact .ok _
    · exact FailsOnly.foldlM
        (fun graph edge => graph.addEdge_useErrorsOnly edge _) _ _
    · exact .error rfl

/-- Applying a default declaration fails at most as a use. -/
theorem applyDefaults_useErrorsOnly
    (declaration : DefaultDeclaration) :
    UseErrorsOnly (draft.applyDefaults declaration) := by
  apply FailsOnly.bind (draft.environment.attributesOf_useErrorsOnly _)
  intro attributes
  exact .ok _

/-- Applying a node statement fails at most as a use. -/
theorem applyNode_useErrorsOnly
    (statement : NodeStatement) :
    UseErrorsOnly (draft.applyStatement (.node statement)) := by
  apply FailsOnly.bind (draft.afterNode_useErrorsOnly _)
  intro graph
  exact .ok _

/-- Applying an edge statement fails at most as a use. -/
theorem applyEdge_useErrorsOnly
    (statement : EdgeStatement) :
    UseErrorsOnly (draft.applyStatement (.edge statement)) := by
  apply FailsOnly.bind (draft.environment.edgeOf_useErrorsOnly _)
  intro edge
  apply FailsOnly.bind (draft.graph.addEdge_useErrorsOnly _ _)
  intro graph
  exact .ok _

/-- Applying any statement fails at most as a declaration. -/
theorem applyStatement_declarationErrorsOnly
    (statement : Statement) :
    DeclarationErrorsOnly (draft.applyStatement statement) := by
  cases statement with
  | binding declaration =>
      apply FailsOnly.bind
        (draft.environment.declareVariable_declarationErrorsOnly _)
      intro environment
      exact .ok _
  | node statement =>
      exact (draft.applyNode_useErrorsOnly statement).inDeclarations
  | edge statement =>
      exact (draft.applyEdge_useErrorsOnly statement).inDeclarations

/-- A run that keeps a fact fails with the error of an item where it holds. -/
theorem run_failsOnly_of_mem
    {Part : Type}
    {kind : EvaluationError → Prop}
    {apply : Draft → Part → Except EvaluationError Draft}
    {Keeps : Draft → Prop}
    (step :
      ∀ draft item next,
        apply draft item = .ok next → Keeps draft → Keeps next)
    {items : List Part}
    (reports :
      ∀ draft, Keeps draft → ∀ item ∈ items,
        FailsOnly kind (apply draft item))
    {draft : Draft}
    (initial : Keeps draft) :
    FailsOnly kind (run apply draft items) := by
  induction items generalizing draft with
  | nil =>
      exact .ok _
  | cons item rest inductionHypothesis =>
      rw [run_cons]
      refine FailsOnly.bindOk (reports draft initial item List.mem_cons_self)
        fun next applied => ?_
      exact inductionHypothesis
        (fun draft kept later member =>
          reports draft kept later (List.mem_cons_of_mem _ member))
        (step draft item next applied initial)

/-- A run fails with the error of one of its items. -/
theorem run_failsOnly
    {Part : Type}
    {kind : EvaluationError → Prop}
    {apply : Draft → Part → Except EvaluationError Draft}
    (reports : ∀ draft item, FailsOnly kind (apply draft item))
    (items : List Part) :
    FailsOnly kind (run apply draft items) :=
  run_failsOnly_of_mem
    (fun _ _ _ _ (unchanged : True) => unchanged)
    (fun draft _ item _ => reports draft item)
    trivial

/-- The body of a graph reports what its items report. -/
theorem finished_declarationErrorsOnly
    (declaration : GraphDeclaration) :
    DeclarationErrorsOnly (draft.finished declaration) := by
  rw [finished_eq_settle]
  apply FailsOnly.bind
  · have ran : UseErrorsOnly _ :=
      draft.run_failsOnly applyDefaults_useErrorsOnly declaration.defaults
    exact ran.inDeclarations.map _
  · intro maps
    have ran :=
      draft.run_failsOnly applyStatement_declarationErrorsOnly
        declaration.statements
    exact ran.map _

end Draft

end GraphScript
