import GraphScript.Decimal.Layout
import GraphScript.NameMap
import GraphScript.Text.Quoted

namespace GraphScript

/-!
# Scalar values

Attributes and literal arguments are words, numbers or strings.
-/

/-- The value of an attribute or of a literal argument. -/
inductive Scalar where
  | word (name : String)
  | number (value : Float)
  | string (contents : String)
  deriving Repr, Inhabited

namespace Scalar

/-- The value of a number. -/
def number? :
    Scalar →
    Option Float
  | .number value =>
      some value
  | _ =>
      none

/-- The text of a word or a string. -/
def text? :
    Scalar →
    Option String
  | .word name =>
      some name
  | .string contents =>
      some contents
  | .number _ =>
      none

/-- Words are shown bare, numbers as plain decimals and strings in quotes. -/
def text :
    Scalar →
    String
  | .word name =>
      name
  | .number value =>
      Decimal.plainText value
  | .string contents =>
      Text.quoted contents

end Scalar

/-- Attributes in the order in which their keys were first given. -/
abbrev Attributes : Type :=
  NameMap Scalar

end GraphScript
