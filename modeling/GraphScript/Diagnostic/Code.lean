namespace GraphScript

/-!
# Codes of diagnostics

Every fault has a number, and the hundreds of the number say which concern of
the language it belongs to.
-/

namespace Diagnostic

/-- The concern of the language that a fault belongs to. -/
inductive Category where
  | syntactic
  | scoping
  | structural
  | typing
  | resolution
  | command
  deriving DecidableEq, Repr

namespace Category

/-- The word for a category. -/
def text :
    Category →
    String
  | .syntactic => "syntax"
  | .scoping => "scope"
  | .structural => "structure"
  | .typing => "type"
  | .resolution => "resolution"
  | .command => "command"

/-- All categories. -/
def all :
    List Category :=
  [.syntactic, .scoping, .structural, .typing, .resolution, .command]

end Category

/-- The number of a fault. -/
structure Code where
  number : Nat
  deriving DecidableEq, Repr

namespace Code

/-- A token stands where another one has to stand. -/
def unexpectedToken : Code := ⟨100⟩

/-- A bracket, a brace or a comment is still open at the end of the text. -/
def unclosedDelimiter : Code := ⟨101⟩

/-- A string has no closing quote on its line. -/
def unterminatedString : Code := ⟨102⟩

/-- A declaration stands behind one that has to come later. -/
def declarationOrder : Code := ⟨103⟩

/-- A character starts no token. -/
def invalidCharacter : Code := ⟨104⟩

/-- A name is declared twice in one scope. -/
def redeclaration : Code := ⟨200⟩

/-- A reference names no variable. -/
def unboundName : Code := ⟨201⟩

/-- Two graphs have one name. -/
def duplicateGraph : Code := ⟨300⟩

/-- An attribute list has a key twice. -/
def attributeKeyConflict : Code := ⟨301⟩

/-- An edge operator does not go with the direction of its graph. -/
def directionMismatch : Code := ⟨302⟩

/-- A value is not of the kind that its use requires. -/
def typeMismatch : Code := ⟨400⟩

/-- A path cannot be followed. -/
def pathResolution : Code := ⟨500⟩

/-- A command has no handler. -/
def unknownCommand : Code := ⟨600⟩

/-- A command was run and did not succeed. -/
def commandFailed : Code := ⟨601⟩

/-- The largest number that a code can have. -/
def limit : Nat := 65535

/-- Numbers outside every other category's hundred count as syntactic. -/
def category
    (code : Code) :
    Category :=
  match code.number / 100 with
  | 2 => .scoping
  | 3 => .structural
  | 4 => .typing
  | 5 => .resolution
  | 6 => .command
  | _ => .syntactic

/-- A code is written as the letter E and its number. -/
def text
    (code : Code) :
    String :=
  s!"E{code.number}"

end Code

end Diagnostic

end GraphScript
