import GraphScript.Proofs.Source.Lines
import Mathlib.Order.Lattice

namespace GraphScript

/-!
# The order of positions and spans

Positions are ordered by line and column. Stepping over characters moves a
position forward, and no further than to the last line of the text.
-/

namespace Position

/-- Positions are ordered by line and, on one line, by column. -/
instance : LinearOrder Position where
  le_refl position := .inr ⟨rfl, Nat.le_refl _⟩
  le_trans first second third := by
    simp only [le_def]
    omega
  le_antisymm first second := by
    rcases first with ⟨line, column⟩
    rcases second with ⟨otherLine, otherColumn⟩
    simp only [le_def, mk.injEq]
    omega
  le_total first second := by
    simp only [le_def]
    omega
  toDecidableLE := inferInstance
  toDecidableEq := inferInstance
  min_def _ _ := rfl
  max_def _ _ := rfl

/-- Positions are ordered by lines, then by columns. -/
theorem lt_def
    {left right : Position} :
    left < right ↔
      left.line < right.line ∨
        (left.line = right.line ∧ left.column < right.column) := by
  rw [lt_iff_le_not_ge, le_def, le_def]
  omega

/-- A character never leads back. -/
theorem le_advance
    (position : Position)
    (character : Char) :
    position ≤ position.advance character := by
  unfold advance
  split
  · exact .inl (Nat.lt_succ_self _)
  · exact .inr ⟨rfl, Nat.le_add_right _ _⟩

/-- A text never leads back. -/
theorem le_advanceBy
    (position : Position)
    (characters : List Char) :
    position ≤ position.advanceBy characters := by
  induction characters generalizing position with
  | nil =>
      exact le_refl position
  | cons character rest inductionHypothesis =>
      exact le_trans (position.le_advance character)
        (inductionHypothesis (position.advance character))

/-- Columns start at one behind every text. -/
theorem one_le_column_advanceBy
    {position : Position}
    (placed : 1 ≤ position.column)
    (characters : List Char) :
    1 ≤ (position.advanceBy characters).column := by
  induction characters generalizing position with
  | nil =>
      exact placed
  | cons character rest inductionHypothesis =>
      apply inductionHypothesis
      unfold advance
      split
      · exact Nat.le_refl 1
      · exact Nat.le_add_right_of_le placed

end Position

namespace Span

/-- A span ends before another one starts. -/
def Precedes
    (earlier later : Span) :
    Prop :=
  earlier.stop < later.start

/-- A span starts and ends in another one. -/
def Within
    (inner outer : Span) :
    Prop :=
  outer.start ≤ inner.start ∧ inner.stop ≤ outer.stop

/-- A span starts and ends on one line, and not before it starts. -/
structure OnLine
    (span : Span) :
    Prop where
  oneLine : span.start.line = span.stop.line
  inOrder : span.start ≤ span.stop

theorem onLine_point
    (position : Position) :
    (point position).OnLine :=
  ⟨rfl, le_refl position⟩

@[simp] theorem merge_self
    (span : Span) :
    span.merge span = span := by
  simp [merge]

/-- The span of characters on one line is on that line and ends before the rest. -/
theorem upTo_of_oneLine
    {start : Position}
    (placed : 1 ≤ start.column)
    {text : List Char}
    (nonempty : text ≠ [])
    (oneLine : '\n' ∉ text) :
    (upTo start (start.advanceBy text)).OnLine ∧
      (upTo start (start.advanceBy text)).stop < start.advanceBy text := by
  have positive : 0 < text.utf8Encode.size := by
    obtain ⟨first, rest, rfl⟩ := List.exists_cons_of_ne_nil nonempty
    rw [size_utf8Encode_cons]
    exact Nat.add_pos_left first.utf8Size_pos _
  rw [Position.advanceBy_of_oneLine oneLine]
  have stop :
      max (start.column + text.utf8Encode.size - 1) 1 =
        start.column + text.utf8Encode.size - 1 := by
    omega
  refine ⟨⟨rfl, .inr ⟨rfl, ?_⟩⟩, Position.lt_def.mpr (.inr ⟨rfl, ?_⟩)⟩
  · simp only [upTo, stop]
    omega
  · simp only [upTo, stop]
    omega

end Span

namespace SourceFile

/-- Behind a part of a text, a position is on one of the lines of the text. -/
theorem line_advanceBy
    (file : SourceFile)
    {before rest : List Char}
    (whole : file.contents.toList = before ++ rest) :
    1 ≤ (Position.origin.advanceBy before).line ∧
      (Position.origin.advanceBy before).line ≤ file.lineCount := by
  obtain ⟨earlier, current, isPosition, areLines⟩ := exists_line before
  have count : file.lineCount = earlier.length + 1 + (splitLines rest).2.length := by
    simp only [lineCount, lines, whole, areLines rest, List.length_append,
      List.length_cons]
    omega
  rw [isPosition, count]
  constructor
  · exact Nat.le_add_left 1 _
  · exact Nat.le_add_right _ _

/-- Every line up to the last one has a text. -/
theorem exists_line?
    (file : SourceFile)
    {number : Nat}
    (isLine : 1 ≤ number ∧ number ≤ file.lineCount) :
    ∃ text, file.line? number = some text := by
  obtain ⟨index, rfl⟩ := Nat.exists_eq_add_of_le' isLine.1
  have inside : index < file.lines.length := isLine.2
  exact ⟨_, by rw [line?, List.getElem?_eq_getElem inside]; rfl⟩

end SourceFile

end GraphScript
