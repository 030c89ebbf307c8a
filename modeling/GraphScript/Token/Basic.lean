import GraphScript.EdgeOperator
import GraphScript.Scalar
import GraphScript.Source.Span

namespace GraphScript

/-!
# Tokens

The words, signs and literals that a program text consists of. The reserved
words are tokens of their own; where no ambiguity arises, programs may still
use them as names.
-/

/-- The reserved words. -/
inductive Keyword where
  | var
  | node
  | edge
  | attributes
  | directed
  | undirected
  | graph
  | run
  | withArguments
  deriving DecidableEq, Repr

namespace Keyword

/-- The spelling of a reserved word. -/
def text :
    Keyword →
    String
  | .var => "var"
  | .node => "node"
  | .edge => "edge"
  | .attributes => "attributes"
  | .directed => "directed"
  | .undirected => "undirected"
  | .graph => "graph"
  | .run => "run"
  | .withArguments => "with"

/-- All reserved words. -/
def all :
    List Keyword :=
  [.var, .node, .edge, .attributes, .directed, .undirected, .graph, .run,
    .withArguments]

theorem mem_all
    (word : Keyword) :
    word ∈ all := by
  cases word <;> decide

/-- The reserved word with a given spelling. -/
def ofText?
    (spelling : String) :
    Option Keyword :=
  all.find? fun word => word.text = spelling

/-- Whether a word can only start an item of the whole program. -/
def startsItem :
    Keyword →
    Bool
  | .var => true
  | .directed => true
  | .undirected => true
  | .run => true
  | _ => false

end Keyword

/-- The punctuation marks. -/
inductive Mark where
  | semicolon
  | equals
  | colon
  | comma
  | dot
  | dollar
  | leftBracket
  | rightBracket
  | leftBrace
  | rightBrace
  | leftParenthesis
  | rightParenthesis
  deriving DecidableEq, Repr

namespace Mark

/-- The character of a mark. -/
def character :
    Mark →
    Char
  | .semicolon => ';'
  | .equals => '='
  | .colon => ':'
  | .comma => ','
  | .dot => '.'
  | .dollar => '$'
  | .leftBracket => '['
  | .rightBracket => ']'
  | .leftBrace => '{'
  | .rightBrace => '}'
  | .leftParenthesis => '('
  | .rightParenthesis => ')'

/-- The mark as it is written. -/
def text
    (mark : Mark) :
    String :=
  mark.character.toString

/-- All marks. -/
def all :
    List Mark :=
  [.semicolon, .equals, .colon, .comma, .dot, .dollar, .leftBracket,
    .rightBracket, .leftBrace, .rightBrace, .leftParenthesis,
    .rightParenthesis]

/-- The mark that a character stands for. -/
def ofCharacter?
    (character : Char) :
    Option Mark :=
  all.find? fun mark => mark.character = character

end Mark

namespace Token

/-- What a token says, apart from where it stands. -/
inductive Kind where
  | number (value : Float)
  | string (contents : String)
  | identifier (name : String)
  | keyword (word : Keyword)
  | operator (sign : EdgeOperator)
  | mark (sign : Mark)
  | endOfFile
  deriving DecidableEq, Repr, Inhabited

namespace Kind

/-- How a token is named in messages. -/
def text :
    Kind →
    String
  | .number value => Decimal.plainText value
  | .string contents => Text.quoted contents
  | .identifier name => name
  | .keyword word => word.text
  | .operator sign => sign.text
  | .mark sign => sign.text
  | .endOfFile => "end of file"

/-- Whether a token is a reserved word. -/
def isKeyword :
    Kind →
    Bool
  | .keyword _ => true
  | _ => false

/-- Whether a token is the end of the text. -/
def isEndOfFile :
    Kind →
    Bool
  | .endOfFile => true
  | _ => false

/-- Whether a token can only start an item of the whole program. -/
def startsItem :
    Kind →
    Bool
  | .keyword word => word.startsItem
  | _ => false

/-- Whether a token is the given mark. -/
def isMark
    (kind : Kind)
    (expected : Mark) :
    Bool :=
  match kind with
  | .mark sign => sign = expected
  | _ => false

/-- The edge operator that a token is. -/
def operator? :
    Kind →
    Option EdgeOperator
  | .operator sign => some sign
  | _ => none

end Kind

end Token

/-- A token and the place where it stands. -/
structure Token where
  kind : Token.Kind
  span : Span
  deriving DecidableEq, Repr

end GraphScript
