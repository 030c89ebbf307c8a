import GraphScript.Source.File
import Mathlib.Data.List.Induction

namespace GraphScript

/-!
# Positions and the lines of a file

Two accounts of places in a text agree. A position counts lines and bytes while a
text is read from its start; a file is cut into lines at its line feeds, and the
lines lose the carriage returns at their ends. The bytes of a line between the
columns of a span are the bytes that were read between its two positions.
-/

namespace SourceFile

/-- The bytes of a file under a span of one line, if there are so many columns. -/
def slice?
    (file : SourceFile)
    (span : Span) :
    Option ByteArray :=
  (file.line? span.start.line).bind fun line =>
    if 1 ≤ span.start.column ∧ span.stop.column ≤ line.utf8ByteSize then
      some (line.toUTF8.extract (span.start.column - 1) span.stop.column)
    else
      none

end SourceFile

/-! ## Counting bytes -/

theorem size_utf8Encode_cons
    (character : Char)
    (rest : List Char) :
    (character :: rest).utf8Encode.size =
      character.utf8Size + rest.utf8Encode.size := by
  rw [List.utf8Encode_cons, ByteArray.size_append, List.utf8Encode_singleton,
    List.size_toByteArray, String.length_utf8EncodeChar]

namespace Position

/-- On one line a position moves by the bytes that are read. -/
theorem advanceBy_of_oneLine
    {text : List Char}
    (oneLine : '\n' ∉ text)
    (position : Position) :
    position.advanceBy text =
      ⟨position.line, position.column + text.utf8Encode.size⟩ := by
  induction text generalizing position with
  | nil =>
      rfl
  | cons character text inductionHypothesis =>
      rw [List.mem_cons, not_or] at oneLine
      have notLineFeed : character ≠ '\n' := Ne.symm oneLine.1
      rw [advanceBy_cons, inductionHypothesis oneLine.2, advance,
        if_neg notLineFeed, size_utf8Encode_cons]
      simp only [Nat.add_assoc]

end Position

/-! ## Cutting into lines -/

theorem splitLines_append_of_oneLine
    {text : List Char}
    (oneLine : '\n' ∉ text)
    (rest : List Char) :
    splitLines (text ++ rest) =
      (text ++ (splitLines rest).1, (splitLines rest).2) := by
  induction text with
  | nil =>
      rfl
  | cons character text inductionHypothesis =>
      rw [List.mem_cons, not_or] at oneLine
      have notLineFeed : character ≠ '\n' := Ne.symm oneLine.1
      rw [List.cons_append, splitLines, inductionHypothesis oneLine.2]
      dsimp only
      rw [if_neg notLineFeed, List.cons_append]

/-- The lines of a text as far as it is read, and the line the reading stands in. -/
theorem exists_line
    (before : List Char) :
    ∃ earlier current,
      Position.origin.advanceBy before =
          ⟨earlier.length + 1, 1 + current.utf8Encode.size⟩ ∧
        ∀ rest,
          (splitLines (before ++ rest)).1 :: (splitLines (before ++ rest)).2 =
            earlier ++
              (current ++ (splitLines rest).1) :: (splitLines rest).2 := by
  -- The position moves with the last character, so the text grows at its end.
  induction before using List.reverseRecOn with
  | nil =>
      refine ⟨[], [], rfl, ?_⟩
      intro rest
      rfl
  | append_singleton before character inductionHypothesis =>
      obtain ⟨earlier, current, isPosition, areLines⟩ := inductionHypothesis
      rw [Position.advanceBy_append, isPosition]
      by_cases isLineFeed : character = '\n'
      · refine ⟨earlier ++ [current], [], ?_, ?_⟩
        · simp [isLineFeed, Position.advance]
        · intro rest
          rw [List.append_assoc, areLines]
          simp [splitLines, isLineFeed]
      · refine ⟨earlier, current ++ [character], ?_, ?_⟩
        · have oneLine : '\n' ∉ [character] := by
            simpa using Ne.symm isLineFeed
          rw [Position.advanceBy_of_oneLine oneLine, List.utf8Encode_append,
            ByteArray.size_append]
          simp only [Nat.add_assoc]
        · intro rest
          rw [List.append_assoc, areLines]
          simp [splitLines, isLineFeed]

/-! ## Trimming returns -/

/-- Carriage returns are trimmed up to a character of another sort. -/
theorem trimReturns_append
    {body : List Char}
    (endsVisibly : body.getLast? ≠ some '\r')
    (rest : List Char) :
    trimReturns (body ++ rest) = body ++ trimReturns rest := by
  have bodyKept :
      body.reverse.dropWhile (fun character => character = '\r') =
        body.reverse := by
    rw [← List.head?_reverse] at endsVisibly
    cases isReverse : body.reverse with
    | nil =>
        rfl
    | cons last earlier =>
        apply List.dropWhile_cons_of_neg
        simpa [isReverse] using endsVisibly
  unfold trimReturns
  rw [List.reverse_append, List.dropWhile_append, bodyKept]
  split
  · next nothingKept =>
      rw [List.isEmpty_iff] at nothingKept
      rw [nothingKept, List.reverse_reverse]
      simp
  · rw [List.reverse_append, List.reverse_reverse]

namespace SourceFile

variable {file : SourceFile}

theorem line?_of_lines
    {earlier later : List (List Char)}
    {line : List Char}
    (areLines : file.lines = earlier ++ line :: later) :
    file.line? (earlier.length + 1) =
      some (String.ofList (trimReturns line)) := by
  rw [line?, areLines, List.getElem?_append_right (Nat.le_refl _), Nat.sub_self]
  rfl

/-- The bytes of a middle part of a line are cut out by their numbers. -/
theorem extract_middle
    (left middle right : List Char) :
    (String.ofList (left ++ (middle ++ right))).toUTF8.extract
        left.utf8Encode.size
        (left.utf8Encode.size + middle.utf8Encode.size) =
      (String.ofList middle).toUTF8 := by
  rw [String.toUTF8_eq_toByteArray, String.toUTF8_eq_toByteArray,
    String.toByteArray_ofList, String.toByteArray_ofList,
    List.utf8Encode_append, List.utf8Encode_append]
  calc
    (left.utf8Encode ++ (middle.utf8Encode ++ right.utf8Encode)).extract
        (left.utf8Encode.size + 0)
        (left.utf8Encode.size + middle.utf8Encode.size) =
        (middle.utf8Encode ++ right.utf8Encode).extract 0
          middle.utf8Encode.size :=
      ByteArray.extract_append_size_add
    _ = middle.utf8Encode :=
      ByteArray.extract_append_eq_left rfl

/-- What is read on one line is found on this line, under its columns. -/
theorem slice?_upTo
    {before text after : List Char}
    (isContents : file.contents.toList = before ++ (text ++ after))
    (nonempty : text ≠ [])
    (oneLine : '\n' ∉ text)
    (endsVisibly : text.getLast? ≠ some '\r') :
    file.slice?
        (.upTo (Position.origin.advanceBy before)
          (Position.origin.advanceBy (before ++ text))) =
      some (String.ofList text).toUTF8 := by
  obtain ⟨earlier, current, isPosition, areLines⟩ := exists_line before
  have isLines :
      file.lines =
        earlier ++
          (current ++ text ++ (splitLines after).1) :: (splitLines after).2 := by
    calc
      file.lines =
          (splitLines (before ++ (text ++ after))).1 ::
            (splitLines (before ++ (text ++ after))).2 := by
        rw [← isContents]
        rfl
      _ =
          earlier ++
            (current ++ (splitLines (text ++ after)).1) ::
              (splitLines (text ++ after)).2 :=
        areLines _
      _ = _ := by
        rw [splitLines_append_of_oneLine oneLine, List.append_assoc]
  have lineEnds : (current ++ text).getLast? ≠ some '\r' := by
    rw [List.getLast?_eq_some_getLast nonempty] at endsVisibly
    rw [List.getLast?_append, List.getLast?_eq_some_getLast nonempty]
    exact endsVisibly
  have isLine := line?_of_lines isLines
  rw [trimReturns_append lineEnds, List.append_assoc] at isLine
  have textPositive : 0 < text.utf8Encode.size := by
    obtain ⟨first, rest, rfl⟩ := List.exists_cons_of_ne_nil nonempty
    rw [size_utf8Encode_cons]
    exact Nat.lt_add_right _ first.utf8Size_pos
  rw [Position.advanceBy_append, isPosition,
    Position.advanceBy_of_oneLine oneLine, slice?, Span.upTo, isLine]
  have columns :
      max (1 + current.utf8Encode.size + text.utf8Encode.size - 1) 1 =
        current.utf8Encode.size + text.utf8Encode.size := by
    omega
  rw [columns, Option.bind_some, if_pos, Nat.add_sub_cancel_left,
    extract_middle]
  rw [← String.size_toByteArray, String.toByteArray_ofList,
    List.utf8Encode_append, List.utf8Encode_append, ByteArray.size_append,
    ByteArray.size_append]
  dsimp only
  omega

end SourceFile

end GraphScript
