import GraphScript.Declaration
import GraphScript.Proofs.Model.Outcome

namespace GraphScript.Environment

/-!
# Names in scopes

A declaration changes the innermost scope alone, and there a single name that
was new. What is evaluated in a scope that was opened leaves the scopes below it
as they were, so closing that scope gives back the environment in which it was
opened.
-/

/-! ## Looking up -/

theorem get?_of_lookup
    {environment : Environment}
    {name : Identifier}
    {found : Variable}
    (isFound : environment.lookup name = .ok found) :
    environment.get? name.name = some found := by
  unfold lookup at isFound
  cases held : environment.get? name.name with
  | none =>
      rw [held] at isFound
      cases isFound
  | some other =>
      rw [held] at isFound
      cases isFound
      rfl

theorem value?_of_lookup
    {environment : Environment}
    {name : Identifier}
    {found : Variable}
    (isFound : environment.lookup name = .ok found) :
    environment.value? name.name = some found.value := by
  rw [value?, get?_of_lookup isFound]
  rfl

/-- A declared variable is seen, and the others are seen as before. -/
theorem get?_bind
    (environment : Environment)
    (added : Variable)
    (name : String) :
    (environment.bind added).get? name =
      if added.name = name then some added else environment.get? name := by
  rcases environment with ⟨program, inner⟩
  cases inner <;>
    by_cases same : added.name = name <;>
      simp [bind, get?, tables, NameMap.get?_insert, List.findSome?_cons,
        same]

/-- A scope without variables hides no name. -/
@[simp] theorem get?_enter
    (environment : Environment)
    (graph name : String) :
    (environment.enter graph).get? name = environment.get? name :=
  rfl

/-- What the innermost scope has under a name is what the name stands for. -/
theorem get?_of_innermost
    {environment : Environment}
    {name : String}
    {found : Variable}
    (held : environment.innermost.get? name = some found) :
    environment.get? name = some found := by
  rcases environment with ⟨program, inner⟩
  cases inner with
  | nil =>
      have inProgram : program.get? name = some found := held
      simp [get?, tables, inProgram]
  | cons scope outer =>
      have inScope : scope.bindings.get? name = some found := held
      simp [get?, tables, inScope]

/-- A declared variable is stored in the innermost scope. -/
theorem innermost_bind
    (environment : Environment)
    (added : Variable) :
    (environment.bind added).innermost =
      environment.innermost.insert added.name added := by
  rcases environment with ⟨program, inner⟩
  cases inner <;> rfl

/-! ## Declaring -/

theorem checkUnbound_eq_ok
    {environment : Environment}
    {name : Identifier} :
    environment.checkUnbound name = .ok () ↔
      environment.innermost.get? name.name = none := by
  unfold checkUnbound
  cases environment.innermost.get? name.name <;> simp

/-- A value is bound where its name is new and the variable has its type. -/
theorem declare_eq_ok
    {environment next : Environment}
    {name : Identifier}
    {declaredType : VariableType}
    {value : Value} :
    environment.declare name declaredType value = .ok next ↔
      environment.innermost.get? name.name = none ∧
        value.type = declaredType ∧
        next =
          environment.bind ⟨name.name, declaredType, value, name.span⟩ := by
  rw [← checkUnbound_eq_ok]
  constructor
  · intro declared
    obtain ⟨⟨⟩, unbound, declared⟩ := bind_eq_ok.1 declared
    split at declared
    · next sameType =>
        cases declared
        exact ⟨unbound, sameType, rfl⟩
    · cases declared
  · rintro ⟨unbound, sameType, rfl⟩
    refine bind_eq_ok.2 ⟨(), unbound, ?_⟩
    rw [if_pos sameType]
    rfl

/--
A declaration succeeds where its name is new in the innermost scope and its
right-hand side has a value of the declared type, and then it binds the name to
that value.
-/
theorem declareVariable_eq_ok
    {environment next : Environment}
    {declaration : VariableDeclaration} :
    environment.declareVariable declaration = .ok next ↔
      environment.innermost.get? declaration.name.name = none ∧
        ∃ value,
          environment.valueOf declaration = .ok value ∧
            value.type = declaration.declaredType ∧
            next =
              environment.bind
                ⟨declaration.name.name, declaration.declaredType, value,
                  declaration.name.span⟩ := by
  constructor
  · intro declared
    obtain ⟨⟨⟩, _, declared⟩ := bind_eq_ok.1 declared
    obtain ⟨value, isValue, declared⟩ := bind_eq_ok.1 declared
    obtain ⟨isNew, sameType, isNext⟩ := declare_eq_ok.1 declared
    exact ⟨isNew, value, isValue, sameType, isNext⟩
  · rintro ⟨isNew, value, isValue, sameType, isNext⟩
    have unbound := checkUnbound_eq_ok.2 isNew
    have declared := declare_eq_ok.2 ⟨isNew, sameType, isNext⟩
    exact bind_eq_ok.2
      ⟨(), unbound, bind_eq_ok.2 ⟨value, isValue, declared⟩⟩

/-- A variable declaration leaves the other names alone. -/
theorem get?_declareVariable
    {environment next : Environment}
    {declaration : VariableDeclaration}
    (declared : environment.declareVariable declaration = .ok next)
    {name : String}
    (other : declaration.name.name ≠ name) :
    next.get? name = environment.get? name := by
  obtain ⟨_, value, _, _, rfl⟩ := declareVariable_eq_ok.1 declared
  rw [get?_bind, if_neg other]

/-- Attributes depend on the name that they refer to, if there is one. -/
theorem attributesOf_congr
    {environment other : Environment}
    {source : AttributeSource}
    (same :
      ∀ name,
        source = .reference name →
        environment.get? name.name = other.get? name.name) :
    environment.attributesOf source = other.attributesOf source := by
  cases source with
  | list attributes =>
      rfl
  | reference name =>
      simp only [attributesOf, lookup, same name rfl]

/-! ## Opening and closing -/

/-- Whether an environment is another one with one more scope opened. -/
structure OpenedOn
    (environment outer : Environment) :
    Prop where
  program : environment.program = outer.program
  inner : ∃ scope, environment.inner = scope :: outer.inner

namespace OpenedOn

variable {environment outer : Environment}

theorem enter
    (outer : Environment)
    (graph : String) :
    (outer.enter graph).OpenedOn outer :=
  ⟨rfl, ⟨graph, .empty⟩, rfl⟩

/-- Closing the scope gives back the environment in which it was opened. -/
theorem leave
    (opened : environment.OpenedOn outer) :
    environment.leave = outer := by
  obtain ⟨sameProgram, scope, sameScopes⟩ := opened
  rcases environment with ⟨program, inner⟩
  cases sameProgram
  cases sameScopes
  rfl

theorem bind
    (opened : environment.OpenedOn outer)
    (added : Variable) :
    (environment.bind added).OpenedOn outer := by
  obtain ⟨sameProgram, scope, sameScopes⟩ := opened
  rcases environment with ⟨program, inner⟩
  cases sameProgram
  cases sameScopes
  exact ⟨rfl, _, rfl⟩

theorem declareVariable
    (opened : environment.OpenedOn outer)
    {declaration : VariableDeclaration}
    {next : Environment}
    (declared : environment.declareVariable declaration = .ok next) :
    next.OpenedOn outer := by
  obtain ⟨_, value, _, _, rfl⟩ := declareVariable_eq_ok.1 declared
  exact opened.bind _

end OpenedOn

end GraphScript.Environment
