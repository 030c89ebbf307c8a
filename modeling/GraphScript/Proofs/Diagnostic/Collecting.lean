import GraphScript.Diagnostic.Log
import Mathlib.Data.List.TakeDrop

namespace GraphScript.Diagnostic

/-!
# Collecting diagnostics

A log that is made by adding diagnostics and by appending other logs shows what
has been added: the first errors, all warnings, and how many there were of each.
Since it shows nothing else, appending logs is as associative as appending the
lists of what was added to them.
-/

/-- The diagnostics of one severity, in their order. -/
def ofSeverity
    (severity : Severity)
    (diagnostics : List Diagnostic) :
    List Diagnostic :=
  diagnostics.filter fun diagnostic => diagnostic.severity = severity

variable
  {severity : Severity}
  {diagnostic : Diagnostic}
  {diagnostics : List Diagnostic}

/--
The diagnostics of a severity are those of the first part and those of the second.
-/
theorem ofSeverity_append
    (first second : List Diagnostic) :
    ofSeverity severity (first ++ second) =
      ofSeverity severity first ++ ofSeverity severity second :=
  List.filter_append ..

/-- One more diagnostic of a severity comes last of them. -/
theorem ofSeverity_concat_of_eq
    (diagnostics : List Diagnostic)
    (same : diagnostic.severity = severity) :
    ofSeverity severity (diagnostics ++ [diagnostic]) =
      ofSeverity severity diagnostics ++ [diagnostic] := by
  simp [ofSeverity, same]

/-- A diagnostic of another severity adds none. -/
theorem ofSeverity_concat_of_ne
    (diagnostics : List Diagnostic)
    (different : diagnostic.severity ≠ severity) :
    ofSeverity severity (diagnostics ++ [diagnostic]) =
      ofSeverity severity diagnostics := by
  simp [ofSeverity, different]

/-- Where all diagnostics are of one severity, none is left out. -/
theorem ofSeverity_eq_self
    (allSuch : ∀ diagnostic ∈ diagnostics, diagnostic.severity = severity) :
    ofSeverity severity diagnostics = diagnostics := by
  apply List.filter_eq_self.mpr
  intro diagnostic member
  exact decide_eq_true (allSuch diagnostic member)

/-- Where all diagnostics are of another severity, none is left. -/
theorem ofSeverity_eq_nil
    {other : Severity}
    (different : other ≠ severity)
    (allOther : ∀ diagnostic ∈ diagnostics, diagnostic.severity = other) :
    ofSeverity severity diagnostics = [] := by
  apply List.filter_eq_nil_iff.mpr
  intro diagnostic member
  rw [allOther diagnostic member, decide_eq_true_eq]
  exact different

/-- What is listed for a severity has it. -/
theorem severity_of_mem
    (member : diagnostic ∈ ofSeverity severity diagnostics) :
    diagnostic.severity = severity :=
  of_decide_eq_true (List.mem_filter.mp member).2

/-- A part of the later items decides which items come first. -/
theorem take_append_take
    {α : Type}
    (count : Nat)
    (first second : List α) :
    (first ++ second.take count).take count = (first ++ second).take count := by
  simp [List.take_append, List.take_take]

/-- One more item is among the first ones while there are too few of them. -/
theorem take_concat
    {α : Type}
    (count : Nat)
    (items : List α)
    (item : α) :
    (items ++ [item]).take count =
      if count ≤ (items.take count).length then
        items.take count
      else
        items.take count ++ [item] := by
  have counted : count ≤ (items.take count).length ↔ count ≤ items.length := by
    rw [List.length_take]
    omega
  simp only [counted]
  by_cases full : count ≤ items.length
  · rw [if_pos full, List.take_append_of_le_length full]
  · have spare : (items ++ [item]).length ≤ count := by
      rw [List.length_append, List.length_singleton]
      omega
    rw [if_neg full, List.take_of_length_le spare,
      List.take_of_length_le (by omega)]

namespace Log

/-- A log shows some diagnostics: the first errors, all warnings, and both counts. -/
structure Shows
    (log : Log)
    (diagnostics : List Diagnostic) :
    Prop where
  errors : log.errors = (ofSeverity .error diagnostics).take errorLimit
  warnings : log.warnings = ofSeverity .warning diagnostics
  totalErrors : log.totalErrors = (ofSeverity .error diagnostics).length
  totalWarnings : log.totalWarnings = (ofSeverity .warning diagnostics).length

/-- The logs that come from adding diagnostics and appending logs. -/
inductive Collected :
    Log →
    Prop where
  | empty :
      Collected empty
  | push
      {log : Log}
      (collected : Collected log)
      (diagnostic : Diagnostic) :
      Collected (log.push diagnostic)
  | extend
      {log other : Log}
      (collected : Collected log)
      (otherCollected : Collected other) :
      Collected (log.extend other)

variable
  {log other : Log}
  {first second : List Diagnostic}

namespace Shows

/-- What a log shows determines it. -/
theorem unique
    (shows : log.Shows diagnostics)
    (otherShows : other.Shows diagnostics) :
    log = other := by
  rcases log with ⟨errors, warnings, totalErrors, totalWarnings⟩
  rcases other with ⟨errors', warnings', totalErrors', totalWarnings'⟩
  rw [mk.injEq]
  exact ⟨shows.errors.trans otherShows.errors.symm,
    shows.warnings.trans otherShows.warnings.symm,
    shows.totalErrors.trans otherShows.totalErrors.symm,
    shows.totalWarnings.trans otherShows.totalWarnings.symm⟩

/-- A log holds all its errors, or as many as the limit allows. -/
theorem length_errors
    (shows : log.Shows diagnostics) :
    log.errors.length = min errorLimit log.totalErrors := by
  rw [shows.errors, shows.totalErrors, List.length_take]

/-! ## Adding diagnostics -/

/-- The empty log shows nothing. -/
theorem empty :
    Log.empty.Shows [] :=
  ⟨rfl, rfl, rfl, rfl⟩

/-- A log that one diagnostic is added to shows that one too. -/
theorem push
    (shows : log.Shows diagnostics)
    (diagnostic : Diagnostic) :
    (log.push diagnostic).Shows (diagnostics ++ [diagnostic]) := by
  unfold Log.push
  cases isSeverity : diagnostic.severity with
  | error =>
      have errors := ofSeverity_concat_of_eq diagnostics isSeverity
      have warnings : ofSeverity .warning (diagnostics ++ [diagnostic]) = _ :=
        ofSeverity_concat_of_ne diagnostics (by simp [isSeverity])
      refine ⟨?_, ?_, ?_, ?_⟩
      · rw [errors, take_concat]
        simp only [isFull, shows.errors, decide_eq_true_eq]
      · rw [warnings, shows.warnings]
      · rw [errors, shows.totalErrors, List.length_append,
          List.length_singleton]
      · rw [warnings, shows.totalWarnings]
  | warning =>
      have errors : ofSeverity .error (diagnostics ++ [diagnostic]) = _ :=
        ofSeverity_concat_of_ne diagnostics (by simp [isSeverity])
      have warnings := ofSeverity_concat_of_eq diagnostics isSeverity
      refine ⟨?_, ?_, ?_, ?_⟩
      · rw [errors, shows.errors]
      · rw [warnings, shows.warnings]
      · rw [errors, shows.totalErrors]
      · rw [warnings, shows.totalWarnings, List.length_append,
          List.length_singleton]

/-- A log that some diagnostics are added to shows these too. -/
theorem pushAll
    (shows : log.Shows first)
    (second : List Diagnostic) :
    (log.pushAll second).Shows (first ++ second) := by
  induction second generalizing log first with
  | nil =>
      rw [List.append_nil]
      exact shows
  | cons diagnostic rest inductionHypothesis =>
      have pushed := inductionHypothesis (shows.push diagnostic)
      rw [List.append_assoc] at pushed
      exact pushed

/-! ## Appending logs -/

/-- The errors that the other log counts without storing would not be stored. -/
theorem extend
    (shows : log.Shows first)
    (otherShows : other.Shows second) :
    (log.extend other).Shows (first ++ second) := by
  have errorsOfErrors :
      ofSeverity .error other.errors =
        (ofSeverity .error second).take errorLimit := by
    rw [otherShows.errors]
    apply ofSeverity_eq_self
    intro diagnostic member
    exact severity_of_mem (List.mem_of_mem_take member)
  have errorsOfWarnings : ofSeverity .error other.warnings = [] := by
    have different : Severity.warning ≠ .error := by decide
    rw [otherShows.warnings]
    apply ofSeverity_eq_nil different
    intro diagnostic member
    exact severity_of_mem member
  have warningsOfErrors : ofSeverity .warning other.errors = [] := by
    have different : Severity.error ≠ .warning := by decide
    rw [otherShows.errors]
    apply ofSeverity_eq_nil different
    intro diagnostic member
    exact severity_of_mem (List.mem_of_mem_take member)
  have warningsOfWarnings :
      ofSeverity .warning other.warnings = ofSeverity .warning second := by
    rw [otherShows.warnings]
    apply ofSeverity_eq_self
    intro diagnostic member
    exact severity_of_mem member
  have pushed := shows.pushAll (other.errors ++ other.warnings)
  refine ⟨?_, ?_, ?_, ?_⟩
  · calc
      (log.extend other).errors =
          (ofSeverity .error first ++
            (ofSeverity .error second).take errorLimit).take errorLimit := by
        rw [Log.extend, pushed.errors]
        simp only [ofSeverity_append, errorsOfErrors, errorsOfWarnings,
          List.append_nil]
      _ = (ofSeverity .error (first ++ second)).take errorLimit := by
        rw [take_append_take, ofSeverity_append]
  · rw [Log.extend, pushed.warnings]
    simp only [ofSeverity_append, warningsOfErrors, warningsOfWarnings,
      List.nil_append]
  · have stored := congrArg List.length otherShows.errors
    rw [Log.extend, hiddenErrors, pushed.totalErrors, otherShows.totalErrors]
    simp only [ofSeverity_append, errorsOfErrors, errorsOfWarnings,
      List.append_nil, List.length_append, List.length_take] at stored ⊢
    omega
  · rw [Log.extend, pushed.totalWarnings]
    simp only [ofSeverity_append, warningsOfErrors, warningsOfWarnings,
      List.nil_append]

end Shows

/-- A log made from a list shows that list. -/
theorem shows_ofList
    (diagnostics : List Diagnostic) :
    (ofList diagnostics).Shows diagnostics :=
  Shows.empty.pushAll diagnostics

/-- Appending the log of a list is adding the list. -/
theorem extend_ofList
    (first second : List Diagnostic) :
    (ofList first).extend (ofList second) = ofList (first ++ second) :=
  ((shows_ofList first).extend (shows_ofList second)).unique
    (shows_ofList (first ++ second))

/-- Every log that can come about is made from some list. -/
theorem Collected.exists_ofList
    (collected : log.Collected) :
    ∃ diagnostics, log = ofList diagnostics := by
  induction collected with
  | empty =>
      exact ⟨[], rfl⟩
  | push _ diagnostic inductionHypothesis =>
      obtain ⟨diagnostics, rfl⟩ := inductionHypothesis
      exact ⟨diagnostics ++ [diagnostic],
        ((shows_ofList diagnostics).push diagnostic).unique (shows_ofList _)⟩
  | extend _ _ inductionHypothesis otherInductionHypothesis =>
      obtain ⟨first, rfl⟩ := inductionHypothesis
      obtain ⟨second, rfl⟩ := otherInductionHypothesis
      exact ⟨first ++ second, extend_ofList first second⟩

/-- Adding diagnostics to a collected log leaves a collected one. -/
theorem collected_pushAll
    (collected : log.Collected)
    (diagnostics : List Diagnostic) :
    (log.pushAll diagnostics).Collected := by
  induction diagnostics generalizing log with
  | nil =>
      exact collected
  | cons diagnostic rest inductionHypothesis =>
      exact inductionHypothesis (collected.push diagnostic)

/--
Appending a log continues the adding of diagnostics.

A log shows what was added to it, however the adding was divided among logs: the
first errors up to the limit, all warnings, and the number of each. So no log
stores more errors than it counts, and logs are appended like lists.
-/
theorem extending_continues_pushing
    (first second : List Diagnostic)
    {left middle right : Log}
    (leftCollected : left.Collected)
    (middleCollected : middle.Collected)
    (rightCollected : right.Collected) :
    (ofList first).extend (ofList second) = ofList (first ++ second) ∧
      (ofList (first ++ second)).Shows (first ++ second) ∧
      left.errors.length = min errorLimit left.totalErrors ∧
      left.errors.length ≤ left.totalErrors ∧
      (left.extend middle).extend right = left.extend (middle.extend right) ∧
      empty.extend left = left ∧
      left.extend empty = left := by
  obtain ⟨leftAdded, rfl⟩ := leftCollected.exists_ofList
  obtain ⟨middleAdded, rfl⟩ := middleCollected.exists_ofList
  obtain ⟨rightAdded, rfl⟩ := rightCollected.exists_ofList
  have stored := (shows_ofList leftAdded).length_errors
  refine ⟨extend_ofList first second, shows_ofList _, stored, ?_, ?_, ?_, ?_⟩
  · rw [stored]
    exact Nat.min_le_right _ _
  · simp only [extend_ofList, List.append_assoc]
  · exact extend_ofList [] leftAdded
  · calc
      (ofList leftAdded).extend (ofList []) = ofList (leftAdded ++ []) :=
        extend_ofList leftAdded []
      _ = ofList leftAdded := by
        rw [List.append_nil]

/-- More errors than a log stores, and a warning among them. -/
def mixedDiagnostics : List Diagnostic :=
  let fault := error "words" .unexpectedToken "?" default "" none
  List.replicate 11 fault ++ fault.asWarning :: List.replicate 11 fault

/-- An error of another sort. -/
def typingDiagnostic : Diagnostic :=
  error "words" .typeMismatch "?" default "" none

theorem extending_continues_pushing_of_mixed :
    (ofList mixedDiagnostics).Collected ∧
      (empty.push typingDiagnostic).Collected ∧
      (ofList mixedDiagnostics).extend (ofList mixedDiagnostics) =
        ofList (mixedDiagnostics ++ mixedDiagnostics) ∧
      (ofList (mixedDiagnostics ++ mixedDiagnostics)).Shows
        (mixedDiagnostics ++ mixedDiagnostics) ∧
      (ofList mixedDiagnostics).errors.length =
        min errorLimit (ofList mixedDiagnostics).totalErrors ∧
      (ofList mixedDiagnostics).errors.length ≤
        (ofList mixedDiagnostics).totalErrors ∧
      ((ofList mixedDiagnostics).extend (empty.push typingDiagnostic)).extend
          (ofList mixedDiagnostics) =
        (ofList mixedDiagnostics).extend
          ((empty.push typingDiagnostic).extend (ofList mixedDiagnostics)) ∧
      empty.extend (ofList mixedDiagnostics) = ofList mixedDiagnostics ∧
      (ofList mixedDiagnostics).extend empty = ofList mixedDiagnostics := by
  have many := collected_pushAll .empty mixedDiagnostics
  have one := Collected.push .empty typingDiagnostic
  exact ⟨many, one,
    extending_continues_pushing mixedDiagnostics mixedDiagnostics many one many⟩

/-- Of forty-four errors the first twenty are stored. -/
example :
    ((ofList mixedDiagnostics).extend (ofList mixedDiagnostics)).totalErrors =
        44 ∧
      ((ofList mixedDiagnostics).extend
        (ofList mixedDiagnostics)).errors.length = 20 := by
  decide +kernel

end Log

end GraphScript.Diagnostic
