import GraphScript.Diagnostic.Log
import GraphScript.Token.Basic

namespace GraphScript

/-!
# What can be wrong with a program text

A fault is the cause of a diagnostic of the reading stages: characters that
form no token, and tokens that form no program. The wording, the code and the
suggestion of every fault are given here and nowhere else.
-/

/-- The items of a program, in the order in which they have to stand. -/
inductive ItemKind where
  | variableDeclaration
  | graphDeclaration
  | command
  deriving DecidableEq, Repr

namespace ItemKind

/-- What an item is called in messages. -/
def text :
    ItemKind →
    String
  | .variableDeclaration => "variable declaration"
  | .graphDeclaration => "graph declaration"
  | .command => "command"

/-- The place of an item among the others. -/
def rank :
    ItemKind →
    Nat
  | .variableDeclaration => 0
  | .graphDeclaration => 1
  | .command => 2

end ItemKind

/-- What a reader was looking for when it met something else. -/
inductive Expectation where
  | mark (sign : Mark)
  | keyword (word : Keyword)
  | identifier
  | name
  | item
  | bodyItem
  | variableType
  | variableValue
  | edgeOperator
  | attributeSource
  | separator
  | scalar
  | semicolonAfter (construct : String)
  | closing (sign : Mark) (opening : Span)
  deriving DecidableEq, Repr

namespace Expectation

/-- What was looked for, in words. -/
def text :
    Expectation →
    String
  | .mark sign =>
      s!"'{sign.text}'"
  | .keyword word =>
      s!"'{word.text}'"
  | .identifier =>
      "identifier"
  | .name =>
      "name"
  | .item =>
      "'var', 'directed', 'undirected' or 'run'"
  | .bodyItem =>
      "node, edge or attribute declaration"
  | .variableType =>
      "'node', 'edge' or 'attributes'"
  | .variableValue =>
      "'$name', an attribute list, an edge list or a node list"
  | .edgeOperator =>
      "edge operator '--', '->' or '<-'"
  | .attributeSource =>
      "an attribute list or '$name'"
  | .separator =>
      "'=' or ':'"
  | .scalar =>
      "identifier, number or string"
  | .semicolonAfter construct =>
      s!"';' after {construct}"
  | .closing sign opening =>
      s!"'{sign.text}' to close the group opened at {opening.text}"

end Expectation

/-- The cause of a diagnostic about a program text. -/
inductive Fault where
  | unexpectedCharacter (character : Char)
  | invalidEscape (character : Char)
  | unterminatedString (quote : Char)
  | unterminatedComment
  | expected (wanted : Expectation) (found : Token.Kind)
  | reservedName (word : Keyword)
  | emptyAttributeList
  | misplacedItem (item earlier : ItemKind)
  | lateDefaults (target : Keyword)
  deriving DecidableEq, Repr

namespace Fault

/-- The character that stands for the first byte of another character's form. -/
def leadingByte
    (character : Char) :
    Char :=
  match String.utf8EncodeChar character with
  | [] =>
      character
  | byte :: _ =>
      Char.ofUInt8 byte

/-- The wording of a fault. -/
def message :
    Fault →
    String
  | .unexpectedCharacter character =>
      s!"Unexpected character '{character}'"
  | .invalidEscape character =>
      s!"Invalid escape sequence '\\{leadingByte character}'"
  | .unterminatedString _ =>
      "Unterminated string literal"
  | .unterminatedComment =>
      "Unterminated block comment"
  | .expected wanted found =>
      s!"expected {wanted.text}, got '{found.text}'"
  | .reservedName word =>
      s!"'{word.text}' is a reserved word and cannot be used as a name"
  | .emptyAttributeList =>
      "attribute list must contain at least one attribute"
  | .misplacedItem item earlier =>
      s!"{item.text} cannot follow a {earlier.text}"
  | .lateDefaults target =>
      s!"global '{target.text}' attributes must come before node and edge statements"

/-- The code of a fault. A group left open at the end of the text has its own. -/
def code :
    Fault →
    Diagnostic.Code
  | .unexpectedCharacter _ => .invalidCharacter
  | .invalidEscape _ => .unexpectedToken
  | .unterminatedString _ => .unterminatedString
  | .unterminatedComment => .unclosedDelimiter
  | .expected (.closing _ _) .endOfFile => .unclosedDelimiter
  | .expected _ _ => .unexpectedToken
  | .reservedName _ => .unexpectedToken
  | .emptyAttributeList => .unexpectedToken
  | .misplacedItem _ _ => .declarationOrder
  | .lateDefaults _ => .declarationOrder

/-- How to mend a fault, where there is an obvious way. -/
def suggestion :
    Fault →
    Option String
  | .unexpectedCharacter '-' =>
      some "Edge operators are '--', '->' and '<-'"
  | .unexpectedCharacter '<' =>
      some "Did you mean the edge operator '<-'?"
  | .unterminatedString quote =>
      some s!"Close the string with {quote}"
  | .unterminatedComment =>
      some "Close the comment with */"
  | .misplacedItem _ _ =>
      some "declare variables first, then graphs, then commands"
  | .lateDefaults _ =>
      some "move global attribute declarations to the top of the graph body"
  | _ =>
      none

end Fault

/-- A fault and the place where it was found. -/
structure FaultReport where
  fault : Fault
  span : Span
  deriving DecidableEq, Repr

namespace FaultReport

/-- The diagnostic of a fault in a source file. -/
def diagnostic
    (report : FaultReport)
    (source : SourceFile) :
    Diagnostic :=
  .inSource source report.fault.code report.fault.message report.span
    report.fault.suggestion

/-- The log of the faults found in a source file. -/
def log
    (source : SourceFile)
    (reports : List FaultReport) :
    Diagnostic.Log :=
  .ofList (reports.map (·.diagnostic source))

end FaultReport

end GraphScript
