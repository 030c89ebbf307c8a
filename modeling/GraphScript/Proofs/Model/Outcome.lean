import GraphScript.EvaluationError

namespace GraphScript

/-!
# Outcomes of evaluation

A computation of several steps succeeds where all of them do, and it fails with
the error of the first step that fails.
-/

/-- A computation of two steps succeeds where both of them do. -/
theorem bind_eq_ok
    {ε α β : Type}
    {first : Except ε α}
    {second : α → Except ε β}
    {final : β} :
    first >>= second = .ok final ↔
      ∃ value, first = .ok value ∧ second value = .ok final := by
  cases first with
  | error error =>
      simp [bind, Except.bind]
  | ok value =>
      simp [bind, Except.bind]

/-- A changed computation succeeds with the change of what it computes. -/
theorem map_eq_ok
    {ε α β : Type}
    {change : α → β}
    {computed : Except ε α}
    {final : β} :
    computed.map change = .ok final ↔
      ∃ value, computed = .ok value ∧ change value = final := by
  cases computed <;> simp [Except.map]

/-- A changed computation fails with the error it failed with. -/
theorem map_eq_error
    {ε α β : Type}
    {change : α → β}
    {computed : Except ε α}
    {error : ε} :
    computed.map change = .error error ↔ computed = .error error := by
  cases computed <;> simp [Except.map]

/-- Every value of a list that was computed is the value of an item. -/
theorem exists_of_mem_mapM
    {ε α β : Type}
    {compute : α → Except ε β}
    {items : List α}
    {values : List β}
    (computed : items.mapM compute = .ok values)
    {value : β}
    (member : value ∈ values) :
    ∃ item ∈ items, compute item = .ok value := by
  induction items generalizing values with
  | nil =>
      cases computed
      cases member
  | cons item rest inductionHypothesis =>
      rw [List.mapM_cons] at computed
      obtain ⟨first, isFirst, computed⟩ := bind_eq_ok.1 computed
      obtain ⟨others, areOthers, computed⟩ := bind_eq_ok.1 computed
      cases computed
      rcases List.mem_cons.1 member with rfl | later
      · exact ⟨item, List.mem_cons_self, isFirst⟩
      · obtain ⟨other, isOther, isValue⟩ :=
          inductionHypothesis areOthers later
        exact ⟨other, List.mem_cons_of_mem _ isOther, isValue⟩

/-- Every item of a list has its value among the computed ones. -/
theorem mem_of_mapM
    {ε α β : Type}
    {compute : α → Except ε β}
    {items : List α}
    {values : List β}
    (computed : items.mapM compute = .ok values)
    {item : α}
    {value : β}
    (member : item ∈ items)
    (isValue : compute item = .ok value) :
    value ∈ values := by
  induction items generalizing values with
  | nil =>
      cases member
  | cons first rest inductionHypothesis =>
      rw [List.mapM_cons] at computed
      obtain ⟨firstValue, isFirst, computed⟩ := bind_eq_ok.1 computed
      obtain ⟨others, areOthers, computed⟩ := bind_eq_ok.1 computed
      cases computed
      rcases List.mem_cons.1 member with rfl | later
      · rw [isValue] at isFirst
        cases isFirst
        exact List.mem_cons_self
      · exact List.mem_cons_of_mem _ (inductionHypothesis areOthers later)

/-- Each of some computations succeeds if all of them do together. -/
theorem exists_of_mapM
    {ε α β : Type}
    {compute : α → Except ε β}
    {items : List α}
    {values : List β}
    (computed : items.mapM compute = .ok values)
    {item : α}
    (member : item ∈ items) :
    ∃ value, compute item = .ok value := by
  induction items generalizing values with
  | nil =>
      cases member
  | cons first rest inductionHypothesis =>
      rw [List.mapM_cons] at computed
      obtain ⟨firstValue, isFirst, computed⟩ := bind_eq_ok.1 computed
      obtain ⟨others, areOthers, _⟩ := bind_eq_ok.1 computed
      rcases List.mem_cons.1 member with rfl | later
      · exact ⟨firstValue, isFirst⟩
      · exact inductionHypothesis areOthers later

/-- A list of computations succeeds if each of them does. -/
theorem exists_mapM_of_forall
    {ε α β : Type}
    {compute : α → Except ε β}
    {items : List α}
    (succeeds : ∀ item ∈ items, ∃ value, compute item = .ok value) :
    ∃ values, items.mapM compute = .ok values := by
  induction items with
  | nil =>
      exact ⟨[], rfl⟩
  | cons item rest inductionHypothesis =>
      obtain ⟨value, isValue⟩ := succeeds item List.mem_cons_self
      obtain ⟨values, areValues⟩ :=
        inductionHypothesis fun later member =>
          succeeds later (List.mem_cons_of_mem _ member)
      refine ⟨value :: values, ?_⟩
      rw [List.mapM_cons, isValue, areValues]
      rfl

/-- What gives the value of each item that succeeds gives those of a whole list. -/
theorem mapM_eq_some_of_ok
    {ε α β : Type}
    {compute : α → Except ε β}
    {denote : α → Option β}
    (denotes : ∀ item value, compute item = .ok value → denote item = some value)
    {items : List α}
    {values : List β}
    (computed : items.mapM compute = .ok values) :
    items.mapM denote = some values := by
  induction items generalizing values with
  | nil =>
      cases computed
      rfl
  | cons item rest inductionHypothesis =>
      rw [List.mapM_cons] at computed ⊢
      obtain ⟨first, isFirst, computed⟩ := bind_eq_ok.1 computed
      obtain ⟨others, areOthers, computed⟩ := bind_eq_ok.1 computed
      cases computed
      rw [denotes item first isFirst, inductionHypothesis areOthers]
      rfl

/-- Two computations that agree on all items of a list agree on the list. -/
theorem mapM_congr
    {ε α β : Type}
    {compute other : α → Except ε β}
    {items : List α}
    (agree : ∀ item ∈ items, compute item = other item) :
    items.mapM compute = items.mapM other := by
  induction items with
  | nil =>
      rfl
  | cons item rest inductionHypothesis =>
      have later :=
        inductionHypothesis fun item member =>
          agree item (List.mem_cons_of_mem _ member)
      rw [List.mapM_cons, List.mapM_cons, agree item List.mem_cons_self, later]

/-- The error of a computation, if it fails. -/
def failure?
    {ε α : Type} :
    Except ε α →
    Option ε
  | .ok _ => none
  | .error error => some error

/-- The failure of a computation is the error it ends with. -/
theorem failure?_eq_some_iff
    {ε α : Type}
    {computed : Except ε α}
    {error : ε} :
    failure? computed = some error ↔ computed = .error error := by
  cases computed <;> simp [failure?]

/-- A computation has no failure exactly if it gives a value. -/
theorem failure?_eq_none_iff
    {ε α : Type}
    {computed : Except ε α} :
    failure? computed = none ↔ ∃ value, computed = .ok value := by
  cases computed <;> simp [failure?]

/-- Changing the value of a computation does not change its failure. -/
theorem failure?_map
    {ε α β : Type}
    (change : α → β)
    (computed : Except ε α) :
    failure? (computed.map change) = failure? computed := by
  cases computed <;> rfl

/-- A list fails to be computed where its first item fails that does. -/
theorem failure?_mapM
    {ε α β : Type}
    (compute : α → Except ε β)
    (items : List α) :
    failure? (items.mapM compute) =
      (items.filterMap fun item => failure? (compute item)).head? := by
  induction items with
  | nil =>
      rfl
  | cons item rest inductionHypothesis =>
      rw [List.mapM_cons, List.filterMap_cons]
      cases first : compute item with
      | error error =>
          rfl
      | ok value =>
          rw [failure?, ← inductionHypothesis]
          cases rest.mapM compute <;> rfl

/-- Nothing is lost by marking a value as present. -/
theorem map_some_eq_iff
    {ε α : Type}
    {left right : Except ε α} :
    left.map some = right.map some ↔ left = right := by
  cases left <;> cases right <;> simp [Except.map]

/-- Whether two computations fail alike, or succeed with values that are related. -/
inductive EndsAlike
    {ε α β : Type}
    (Related : α → β → Prop) :
    Except ε α →
    Except ε β →
    Prop where
  | ok
      {value : α}
      {other : β}
      (related : Related value other) :
      EndsAlike Related (.ok value) (.ok other)
  | error
      (error : ε) :
      EndsAlike Related (.error error) (.error error)

namespace EndsAlike

/-- The same computation ends alike. -/
theorem of_eq
    {ε α : Type}
    {first other : Except ε α}
    (same : first = other) :
    EndsAlike Eq first other := by
  subst same
  cases first with
  | ok value => exact .ok rfl
  | error error => exact .error error

variable
  {ε α β γ δ : Type}
  {Related : α → β → Prop}
  {first : Except ε α}
  {other : Except ε β}

/-- Computations that end alike can be continued in ways that end alike. -/
theorem bind
    {Later : γ → δ → Prop}
    (alike : EndsAlike Related first other)
    {next : α → Except ε γ}
    {otherNext : β → Except ε δ}
    (later :
      ∀ {value same},
        Related value same → EndsAlike Later (next value) (otherNext same)) :
    EndsAlike Later (first >>= next) (other >>= otherNext) := by
  cases alike with
  | ok related => exact later related
  | error error => exact .error error

/-- Computations that end alike can be continued in ways that agree. -/
theorem bind_eq
    (alike : EndsAlike Related first other)
    {next : α → Except ε γ}
    {otherNext : β → Except ε γ}
    (agree :
      ∀ {value same}, Related value same → next value = otherNext same) :
    first >>= next = other >>= otherNext := by
  cases alike with
  | ok related => exact agree related
  | error error => rfl

end EndsAlike

/-- Whether every error that a computation can end with is of a kind. -/
def FailsOnly
    {ε α : Type}
    (kind : ε → Prop)
    (computed : Except ε α) :
    Prop :=
  ∀ error, computed = .error error → kind error

namespace FailsOnly

variable
  {ε α β : Type}
  {kind : ε → Prop}

/-- A computation with a value fails with no error. -/
theorem ok
    (value : α) :
    FailsOnly kind (.ok value) := by
  intro error failed
  cases failed

/-- An error of a kind is a failure of that kind only. -/
theorem error
    {error : ε}
    (isKind : kind error) :
    FailsOnly kind (.error error : Except ε α) := by
  intro other failed
  cases failed
  exact isKind

/--
A computation that fails only with errors of a kind fails only with those of a
wider one.
-/
theorem imp
    {wider : ε → Prop}
    {computed : Except ε α}
    (fails : FailsOnly kind computed)
    (widens : ∀ error, kind error → wider error) :
    FailsOnly wider computed :=
  fun error failed => widens error (fails error failed)

/-- The second step matters only with the value that the first one has. -/
theorem bindOk
    {first : Except ε α}
    {second : α → Except ε β}
    (firstFails : FailsOnly kind first)
    (secondFails :
      ∀ value, first = .ok value → FailsOnly kind (second value)) :
    FailsOnly kind (first >>= second) := by
  intro error failed
  cases first with
  | error earlier =>
      cases failed
      exact firstFails error rfl
  | ok value =>
      exact secondFails value rfl error failed

/-- Two computations in a row fail only with errors of a kind if each of them does. -/
theorem bind
    {first : Except ε α}
    {second : α → Except ε β}
    (firstFails : FailsOnly kind first)
    (secondFails : ∀ value, FailsOnly kind (second value)) :
    FailsOnly kind (first >>= second) :=
  firstFails.bindOk fun value _ => secondFails value

/-- Changing the value of a computation adds no error. -/
theorem map
    {computed : Except ε α}
    (fails : FailsOnly kind computed)
    (change : α → β) :
    FailsOnly kind (computed.map change) := by
  intro error failed
  cases computed with
  | error earlier =>
      cases failed
      exact fails error rfl
  | ok value =>
      cases failed

/-- A list of computations fails with the error of one of them. -/
theorem mapM_of_mem
    {compute : α → Except ε β}
    {items : List α}
    (fails : ∀ item ∈ items, FailsOnly kind (compute item)) :
    FailsOnly kind (items.mapM compute) := by
  induction items with
  | nil =>
      exact ok []
  | cons item rest inductionHypothesis =>
      rw [List.mapM_cons]
      apply bind (fails item List.mem_cons_self)
      intro value
      apply bind
        (inductionHypothesis fun later member =>
          fails later (List.mem_cons_of_mem _ member))
      intro values
      exact ok (value :: values)

/-- A computation for each item of a list fails only as the one for an item does. -/
theorem mapM
    {compute : α → Except ε β}
    (fails : ∀ item, FailsOnly kind (compute item))
    (items : List α) :
    FailsOnly kind (items.mapM compute) :=
  mapM_of_mem fun item _ => fails item

/-- A loop over a list fails only as its step does. -/
theorem foldlM
    {step : α → β → Except ε α}
    (fails : ∀ state item, FailsOnly kind (step state item))
    (state : α)
    (items : List β) :
    FailsOnly kind (items.foldlM step state) := by
  induction items generalizing state with
  | nil =>
      exact ok state
  | cons item rest inductionHypothesis =>
      rw [List.foldlM_cons]
      exact bind (fails state item) inductionHypothesis

end FailsOnly

end GraphScript
