namespace GraphScript

/-!
# Positions and spans of a source text

Lines and columns count from one, and a column counts the bytes of the UTF-8
form of a line. A span holds the positions of its first and of its last byte.
-/

/-- A place in a source text. -/
structure Position where
  line : Nat
  column : Nat
  deriving DecidableEq, Repr, Inhabited

namespace Position

/-- Positions are compared by line and, on one line, by column. -/
instance : LE Position where
  le left right :=
    left.line < right.line ∨
      (left.line = right.line ∧ left.column ≤ right.column)

theorem le_def
    {left right : Position} :
    left ≤ right ↔
      left.line < right.line ∨
        (left.line = right.line ∧ left.column ≤ right.column) :=
  Iff.rfl

instance (left right : Position) : Decidable (left ≤ right) :=
  decidable_of_iff _ le_def.symm

instance : Min Position where
  min left right := if left ≤ right then left else right

instance : Max Position where
  max left right := if left ≤ right then right else left

/-- The first position of every text. -/
def origin : Position :=
  ⟨1, 1⟩

/-- The position after one character: a line feed starts the next line. -/
def advance
    (position : Position)
    (character : Char) :
    Position :=
  if character = '\n' then
    ⟨position.line + 1, 1⟩
  else
    ⟨position.line, position.column + character.utf8Size⟩

/-- The position after a run of characters. -/
def advanceBy
    (position : Position)
    (characters : List Char) :
    Position :=
  characters.foldl advance position

@[simp] theorem advanceBy_nil
    (position : Position) :
    position.advanceBy [] = position :=
  rfl

@[simp] theorem advanceBy_cons
    (position : Position)
    (character : Char)
    (characters : List Char) :
    position.advanceBy (character :: characters) =
      (position.advance character).advanceBy characters :=
  rfl

theorem advanceBy_append
    (position : Position)
    (first second : List Char) :
    position.advanceBy (first ++ second) =
      (position.advanceBy first).advanceBy second := by
  simp [advanceBy]

/-- A position is written as its line and its column. -/
def text
    (position : Position) :
    String :=
  s!"{position.line}:{position.column}"

end Position

/-- The part of a source text from one position through another. -/
structure Span where
  start : Position
  stop : Position
  deriving DecidableEq, Repr

namespace Span

/-- The span of a single position. -/
def point
    (position : Position) :
    Span :=
  ⟨position, position⟩

instance : Inhabited Span where
  default := point .origin

/-- The smallest span that covers both spans. -/
def merge
    (left right : Span) :
    Span :=
  ⟨min left.start right.start, max left.stop right.stop⟩

/--
The span of the characters between two positions.

Its last column is the one before `after`, and never zero.
-/
def upTo
    (start after : Position) :
    Span :=
  ⟨start, after.line, max (after.column - 1) 1⟩

/-- A span is written as the position where it starts. -/
def text
    (span : Span) :
    String :=
  span.start.text

end Span

end GraphScript
