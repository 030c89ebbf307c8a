import GraphScript.Program.Cursor

namespace GraphScript.Reader

/-!
# Reading attributes, paths and arguments
-/

/-- Read the name of a variable after a dollar sign, which belongs to its span. -/
def referenceAfter
    (dollar : Span) :
    Reader Identifier := do
  let name ← identifier
  return ⟨name.name, dollar.merge name.span⟩

/-- Read the sign between a key and its value. -/
def separator :
    Reader Separator := do
  match ← peek with
  | .mark .equals =>
      let _ ← advance
      return .assign
  | .mark .colon =>
      let _ ← advance
      return .typed
  | _ =>
      unexpected .separator

/-- Read a word, a number or a string. A reserved word is a word as well. -/
def scalar :
    Reader Scalar := do
  match ← peek with
  | .identifier name =>
      let _ ← advance
      return .word name
  | .number value =>
      let _ ← advance
      return .number value
  | .string contents =>
      let _ ← advance
      return .string contents
  | .keyword word =>
      let _ ← advance
      return .word word.text
  | _ =>
      unexpected .scalar

/-- Read a key with its value. -/
def attributePair :
    Reader Attribute := do
  let key ← anyName
  let separator ← separator
  let value ← scalar
  return ⟨key, separator, value, ← spanFrom key.span⟩

/-- Read attributes between brackets. A comma may follow the last of them. -/
def attributeList :
    Reader AttributeList := do
  let opening ← mark .leftBracket
  if (← peek).isMark .rightBracket then
    failPast .emptyAttributeList
  else
    let first ← attributePair
    let others ← further .comma (·.isMark .rightBracket) attributePair
    let _ ← closing .rightBracket opening
    return ⟨first :: others, ← spanFrom opening⟩

/-- Read attributes if they come next, in brackets or by reference. -/
def attributes? :
    Reader (Option AttributeSource) := do
  match ← peek with
  | .mark .leftBracket =>
      return some (.list (← attributeList))
  | .mark .dollar =>
      return some (.reference (← referenceAfter (← advance)))
  | _ =>
      return none

/-- Read names joined by dots. Only the first one cannot be a reserved word. -/
def path :
    Reader Path := do
  let first ← identifier
  let others ← further .dot (fun _ => false) anyName
  return ⟨first :: others, ← spanFrom first.span⟩

/-- Read an argument's value: a path where a name comes next, else a literal. -/
def argumentSource :
    Reader ArgumentSource := do
  match ← peek with
  | .identifier _ =>
      return .path (← path)
  | _ =>
      return .literal (← scalar)

/-- Read a key with its value in a command. -/
def argument :
    Reader Argument := do
  let key ← anyName
  let separator ← separator
  let source ← argumentSource
  return ⟨key, separator, source, ← spanFrom key.span⟩

end GraphScript.Reader
