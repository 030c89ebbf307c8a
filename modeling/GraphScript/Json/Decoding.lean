import GraphScript.Diagnostic.Log
import GraphScript.Json.Document
import GraphScript.Program.Basic

namespace GraphScript

/-!
# Reading diagnostics and words from JSON

Objects with named fields need each of their fields once and ignore others.
Words are strings of which a fixed set is known.
-/

namespace Json.Document

/-- The contents of a string. -/
def string? :
    Document →
    Option String
  | .string contents => contents
  | _ => none

/-- A natural number up to a limit. -/
def natural?
    (limit : Nat) :
    Document →
    Option Nat
  | .number numeral =>
      numeral.natural?.filter fun value => value ≤ limit
  | _ =>
      none

/-- The items of an array, each of them decoded. -/
def items?
    {Part : Type}
    (decode : Document → Option Part) :
    Document →
    Option (List Part)
  | .array items => items.mapM decode
  | _ => none

/-- The members of an object, all of whose keys have contents. -/
def members? :
    Document →
    Option (List (String × Document))
  | .object members =>
      members.mapM fun (key, value) => key.map fun name => (name, value)
  | _ =>
      none

/-- The one of some known values that a word names, alone or as a key of null. -/
def word?
    {Known : Type}
    (all : List Known)
    (spelling : Known → String) :
    Document →
    Option Known
  | .string (some word) =>
      all.find? fun known => spelling known = word
  | .object [(some word, .null)] =>
      all.find? fun known => spelling known = word
  | _ =>
      none

/-- The values of a member, however often it occurs. -/
def valuesOf
    (members : List (String × Document))
    (key : String) :
    List Document :=
  (members.filter fun member => member.1 = key).map Prod.snd

/-- The value of a member that occurs once. -/
def field?
    (members : List (String × Document))
    (key : String) :
    Option Document :=
  match valuesOf members key with
  | [value] => some value
  | _ => none

/-- The value of a member that may be absent, and counts as null then. -/
def optionalField?
    (members : List (String × Document))
    (key : String) :
    Option Document :=
  match valuesOf members key with
  | [] => some .null
  | [value] => some value
  | _ => none

mutual

/--
Whether a value can be stored: every string has contents, every number is
finite, and nesting stays below a limit.
-/
def isStorable
    (nesting : Nat) :
    Document →
    Bool
  | .null => true
  | .bool _ => true
  | .number numeral => numeral.float?.isSome
  | .string contents => contents.isSome
  | .array items => 2 ≤ nesting && areStorable (nesting - 1) items
  | .object members => 2 ≤ nesting && membersAreStorable (nesting - 1) members

/-- Whether all items of an array can be stored. -/
def areStorable
    (nesting : Nat) :
    List Document →
    Bool
  | [] => true
  | item :: rest => isStorable nesting item && areStorable nesting rest

/-- Whether all members of an object can be stored. -/
def membersAreStorable
    (nesting : Nat) :
    List (Option String × Document) →
    Bool
  | [] => true
  | (key, value) :: rest =>
      key.isSome && isStorable nesting value &&
        membersAreStorable nesting rest

end

/-- The nesting that is left inside an outermost object. -/
def nestingLimit : Nat := 127

end Json.Document

open Json (Document)

namespace Scalar

/-- Read a scalar from an object whose only member tells what it is. -/
def ofDocument? :
    Document →
    Option Scalar
  | .object [(some "identifier", value)] =>
      value.string?.map .word
  | .object [(some "string", value)] =>
      value.string?.map .string
  | .object [(some "number", .number numeral)] =>
      numeral.float?.map .number
  | _ =>
      none

end Scalar

namespace Span

/-- The largest line or column that is read. -/
def positionLimit : Nat :=
  Nat.pow 2 32 - 1

/-- The names of a span's fields in order. -/
def fieldNames :
    List String :=
  ["line", "column", "end_line", "end_column"]

/-- The span with the given lines and columns. -/
def ofNaturals? :
    List Nat →
    Option Span
  | [line, column, endLine, endColumn] =>
      some ⟨⟨line, column⟩, ⟨endLine, endColumn⟩⟩
  | _ =>
      none

/-- Read a span from members of an object. -/
def ofMembers?
    (members : List (String × Document)) :
    Option Span := do
  let fields ← fieldNames.mapM (Document.field? members)
  ofNaturals? (← fields.mapM (Document.natural? positionLimit))

/-- Read a span from an object, or from an array of its fields in order. -/
def ofDocument?
    (document : Document) :
    Option Span :=
  match document with
  | .array items =>
      (items.mapM (Document.natural? positionLimit)).bind ofNaturals?
  | _ =>
      document.members?.bind ofMembers?

end Span

namespace Diagnostic

/-- The names of a diagnostic's own fields. -/
def fieldNames :
    List String :=
  ["file", "code", "severity", "category", "message", "source_line",
    "suggestion"]

/-- Read an optional text, for which null stands as well. -/
def suggestion? :
    Document →
    Option (Option String)
  | .null => some none
  | .string contents => contents.map some
  | _ => none

/--
Read a diagnostic from an object that holds the fields of its span as well.

What the other members hold is ignored, but it has to be storable.
-/
def ofDocument?
    (nesting : Nat)
    (document : Document) :
    Option Diagnostic := do
  let members ← document.members?
  let others := members.filter fun member => member.1 ∉ fieldNames
  if others.all fun member => member.2.isStorable nesting then
    return {
      file := ← (← Document.field? members "file").string?
      code :=
        ⟨← (← Document.field? members "code").natural? Code.limit⟩
      severity :=
        ← (← Document.field? members "severity").word? Severity.all
          Severity.text
      category :=
        ← (← Document.field? members "category").word? Category.all
          Category.text
      message := ← (← Document.field? members "message").string?
      span := ← Span.ofMembers? members
      sourceLine := ← (← Document.field? members "source_line").string?
      suggestion :=
        ← suggestion? (← Document.optionalField? members "suggestion") }
  else
    none

namespace Log

/-- The largest number of diagnostics that is read. -/
def countLimit : Nat :=
  Nat.pow 2 64 - 1

/-- The names of a log's fields in order. -/
def fieldNames :
    List String :=
  ["errors", "warnings", "total_errors", "total_warnings"]

/-- Read a log from its fields in order. -/
def ofFields? :
    List Document →
    Option Log
  | [errors, warnings, totalErrors, totalWarnings] => do
      let one := Diagnostic.ofDocument? (Document.nestingLimit - 2)
      return {
        errors := ← errors.items? one
        warnings := ← warnings.items? one
        totalErrors := ← totalErrors.natural? countLimit
        totalWarnings := ← totalWarnings.natural? countLimit }
  | _ =>
      none

/-- Read a log from an object, or from an array of its fields in order. -/
def ofDocument?
    (document : Document) :
    Option Log :=
  match document with
  | .array items =>
      ofFields? items
  | _ => do
      let members ← document.members?
      ofFields? (← fieldNames.mapM (Document.field? members))

end Log

end Diagnostic

end GraphScript
