import GraphScript.Diagnostic.Basic

namespace GraphScript

/-!
# Collected diagnostics

A log stores a limited number of errors and counts the ones it does not store.
Warnings are all stored.
-/

namespace Diagnostic

/-- The number of errors that a log stores, and at which reading gives up. -/
def errorLimit : Nat := 20

/-- The diagnostics of one or more stages. -/
structure Log where
  errors : List Diagnostic
  warnings : List Diagnostic
  totalErrors : Nat
  totalWarnings : Nat
  deriving DecidableEq, Repr

namespace Log

/-- The log without diagnostics. -/
def empty :
    Log :=
  ⟨[], [], 0, 0⟩

instance : Inhabited Log where
  default := empty

/-- Whether any error was added, stored or not. -/
def hasErrors
    (log : Log) :
    Bool :=
  0 < log.totalErrors

/-- Whether no further error would be stored. -/
def isFull
    (log : Log) :
    Bool :=
  errorLimit ≤ log.errors.length

/-- Add one diagnostic. An error past the limit is counted and not stored. -/
def push
    (log : Log)
    (diagnostic : Diagnostic) :
    Log :=
  match diagnostic.severity with
  | .error =>
      { log with
        errors :=
          if log.isFull then
            log.errors
          else
            log.errors ++ [diagnostic]
        totalErrors := log.totalErrors + 1 }
  | .warning =>
      { log with
        warnings := log.warnings ++ [diagnostic]
        totalWarnings := log.totalWarnings + 1 }

/-- Add diagnostics one after another. -/
def pushAll
    (log : Log)
    (diagnostics : List Diagnostic) :
    Log :=
  diagnostics.foldl push log

/-- The log of a list of diagnostics. -/
def ofList
    (diagnostics : List Diagnostic) :
    Log :=
  empty.pushAll diagnostics

/-- The errors that a log counts and does not store. -/
def hiddenErrors
    (log : Log) :
    Nat :=
  log.totalErrors - log.errors.length

/-- Append another log: what it stores is pushed, what it hides is counted. -/
def extend
    (log other : Log) :
    Log :=
  let pushed := log.pushAll (other.errors ++ other.warnings)
  { pushed with totalErrors := pushed.totalErrors + other.hiddenErrors }

/-- The first stored error. -/
def first?
    (log : Log) :
    Option Diagnostic :=
  log.errors.head?

end Log

end Diagnostic

end GraphScript
