import GraphScript.Proofs.Source.Lines

namespace GraphScript

/-!
# The bytes of a text

A column counts bytes, so a span cuts bytes out of a line, and these need not be
whole characters. The bytes under a span are taken from the line as it stands,
with the carriage returns at its end.
-/

/-- The bytes of the UTF-8 form of a text. -/
def utf8Bytes
    (text : List Char) :
    List UInt8 :=
  text.flatMap String.utf8EncodeChar

/-- They are the bytes of the string. -/
theorem utf8Bytes_eq_toUTF8
    (text : List Char) :
    utf8Bytes text = (String.ofList text).toUTF8.data.toList := by
  rw [String.toUTF8_eq_toByteArray, String.toByteArray_ofList]
  exact List.toList_data_toByteArray.symm

@[simp] theorem utf8Bytes_nil :
    utf8Bytes [] = [] :=
  rfl

@[simp] theorem utf8Bytes_cons
    (character : Char)
    (rest : List Char) :
    utf8Bytes (character :: rest) =
      String.utf8EncodeChar character ++ utf8Bytes rest :=
  List.flatMap_cons

@[simp] theorem utf8Bytes_append
    (first second : List Char) :
    utf8Bytes (first ++ second) = utf8Bytes first ++ utf8Bytes second :=
  List.flatMap_append

theorem length_utf8Bytes
    (text : List Char) :
    (utf8Bytes text).length = text.utf8Encode.size :=
  List.size_toByteArray.symm

theorem length_utf8Bytes_cons
    (character : Char)
    (rest : List Char) :
    (utf8Bytes (character :: rest)).length =
      character.utf8Size + (utf8Bytes rest).length := by
  rw [utf8Bytes_cons, List.length_append, String.length_utf8EncodeChar]

/-- The first byte of a character tells whether it is the only one. -/
theorem exists_firstByte
    (character : Char) :
    ∃ byte rest,
      String.utf8EncodeChar character = byte :: rest ∧
        (byte.toNat < 128 ↔ rest = []) := by
  have isValue : character.val.toNat = character.toNat := rfl
  unfold String.utf8EncodeChar
  dsimp only
  split
  · refine ⟨_, _, rfl, ?_⟩
    simp only [UInt8.toNat_ofNat', iff_true]
    omega
  split
  · refine ⟨_, _, rfl, ?_⟩
    simp only [UInt8.toNat_ofNat', List.cons_ne_nil, iff_false]
    omega
  split
  · refine ⟨_, _, rfl, ?_⟩
    simp only [UInt8.toNat_ofNat', List.cons_ne_nil, iff_false]
    omega
  · refine ⟨_, _, rfl, ?_⟩
    simp only [UInt8.toNat_ofNat', List.cons_ne_nil, iff_false]
    omega

/-- Behind a character of one byte a text goes on. -/
theorem exists_utf8Bytes_of_cons
    {text : List Char}
    {byte : UInt8}
    {bytes : List UInt8}
    (isText : utf8Bytes text = byte :: bytes)
    (small : byte.toNat < 128) :
    ∃ rest, utf8Bytes rest = bytes := by
  cases text with
  | nil =>
      cases isText
  | cons head rest =>
      obtain ⟨first, others, isHead, smallHead⟩ := exists_firstByte head
      rw [utf8Bytes_cons, isHead, List.cons_append, List.cons.injEq] at isText
      have isSingle : others = [] := smallHead.mp (isText.1 ▸ small)
      exact ⟨rest, by simpa [isSingle] using isText.2⟩

/-- The first byte of a character is a text if it is the only one. -/
theorem exists_utf8Bytes_eq_firstByte_iff
    {character : Char}
    {byte : UInt8}
    {others : List UInt8}
    (isSplit : String.utf8EncodeChar character = byte :: others) :
    (∃ text, utf8Bytes text = [byte]) ↔ character.utf8Size = 1 := by
  obtain ⟨first, rest, isEncoded, small⟩ := exists_firstByte character
  cases isSplit.symm.trans isEncoded
  have isSize : character.utf8Size = others.length + 1 := by
    rw [← String.length_utf8EncodeChar, isSplit, List.length_cons]
  have single : character.utf8Size = 1 ↔ others = [] := by
    rw [isSize, ← List.length_eq_zero_iff]
    omega
  rw [single, ← small]
  constructor
  · rintro ⟨text, isText⟩
    cases text with
    | nil =>
        cases isText
    | cons head tail =>
        obtain ⟨headFirst, headRest, isHead, smallHead⟩ := exists_firstByte head
        rw [utf8Bytes_cons, isHead, List.cons_append, List.cons.injEq,
          List.append_eq_nil_iff] at isText
        rw [← isText.1]
        exact smallHead.mpr isText.2.1
  · intro isSmall
    exact ⟨[character], by rw [utf8Bytes_cons, isSplit, small.mp isSmall]; rfl⟩

namespace SourceFile

/-- The bytes under a span that starts and ends on one line of a file. -/
def bytesUnder?
    (file : SourceFile)
    (span : Span) :
    Option (List UInt8) :=
  if
    span.start.line = span.stop.line ∧
      1 ≤ span.start.line ∧
      1 ≤ span.start.column
  then
    file.lines[span.start.line - 1]?.bind fun line =>
      if span.stop.column ≤ (utf8Bytes line).length then
        some
          (((utf8Bytes line).take span.stop.column).drop
            (span.start.column - 1))
      else
        none
  else
    none

variable {file : SourceFile}

theorem exists_lines_of_read
    {before text after : List Char}
    (isContents : file.contents.toList = before ++ (text ++ after))
    (oneLine : '\n' ∉ text) :
    ∃ earlier current ending later,
      Position.origin.advanceBy before =
          ⟨earlier.length + 1, 1 + (utf8Bytes current).length⟩ ∧
        file.lines = earlier ++ (current ++ (text ++ ending)) :: later := by
  obtain ⟨earlier, current, isPosition, areLines⟩ := exists_line before
  refine ⟨earlier, current, (splitLines after).1, (splitLines after).2, ?_, ?_⟩
  · rw [length_utf8Bytes]
    exact isPosition
  · have areRead := areLines (text ++ after)
    rw [← isContents, splitLines_append_of_oneLine oneLine] at areRead
    exact areRead

/-- The bytes that are read on one line stand under the columns that they take. -/
theorem bytesUnder?_of_read
    {before text after : List Char}
    (isContents : file.contents.toList = before ++ (text ++ after))
    (oneLine : '\n' ∉ text)
    {count : Nat}
    (positive : 0 < count)
    (within : count ≤ (utf8Bytes text).length) :
    file.bytesUnder?
        (.upTo (Position.origin.advanceBy before)
          ⟨(Position.origin.advanceBy before).line,
            (Position.origin.advanceBy before).column + count⟩) =
      some ((utf8Bytes text).take count) := by
  obtain ⟨earlier, current, ending, later, isPosition, areLines⟩ :=
    exists_lines_of_read isContents oneLine
  have isLine : file.lines[earlier.length]? = some (current ++ (text ++ ending)) := by
    rw [areLines, List.getElem?_append_right (Nat.le_refl _), Nat.sub_self]
    rfl
  have isStop :
      max (1 + (utf8Bytes current).length + count - 1) 1 =
        (utf8Bytes current).length + count := by
    omega
  have fits :
      (utf8Bytes current).length + count ≤
        (utf8Bytes (current ++ (text ++ ending))).length := by
    simp only [utf8Bytes_append, List.length_append]
    omega
  have isTaken :
      ((utf8Bytes (current ++ (text ++ ending))).take
          ((utf8Bytes current).length + count)).drop
            (utf8Bytes current).length =
        (utf8Bytes text).take count := by
    rw [utf8Bytes_append, utf8Bytes_append, List.take_length_add_append,
      List.drop_left, List.take_append_of_le_length within]
  rw [isPosition, bytesUnder?, Span.upTo, isStop]
  dsimp only
  rw [if_pos ⟨rfl, Nat.le_add_left 1 _, Nat.le_add_right 1 _⟩,
    Nat.add_sub_cancel, isLine, Option.bind_some, if_pos fits,
    Nat.add_sub_cancel_left, isTaken]

/-- What is read on one line stands as a whole under the span of its positions. -/
theorem bytesUnder?_upTo
    {before text after : List Char}
    (isContents : file.contents.toList = before ++ (text ++ after))
    (nonempty : text ≠ [])
    (oneLine : '\n' ∉ text) :
    file.bytesUnder?
        (.upTo (Position.origin.advanceBy before)
          (Position.origin.advanceBy (before ++ text))) =
      some (utf8Bytes text) := by
  have positive : 0 < (utf8Bytes text).length := by
    obtain ⟨first, rest, rfl⟩ := List.exists_cons_of_ne_nil nonempty
    rw [length_utf8Bytes_cons]
    exact Nat.add_pos_left first.utf8Size_pos _
  have read :=
    bytesUnder?_of_read isContents oneLine positive (Nat.le_refl _)
  rw [List.take_length, length_utf8Bytes] at read
  rw [Position.advanceBy_append, Position.advanceBy_of_oneLine oneLine]
  exact read

end SourceFile

end GraphScript
