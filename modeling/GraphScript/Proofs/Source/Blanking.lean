import GraphScript.Proofs.Source.Bytes
import GraphScript.Proofs.Source.Positions

namespace GraphScript

/-!
# Writing spaces over parts of a text

A span names bytes of a text. Where spaces are written over the bytes under some
spans, all other bytes stay, and a character under a span becomes as many spaces
as it has bytes, so that nothing behind it moves.
-/

namespace Position

/-- The position after one byte: a line feed starts the next line. -/
def advanceByte
    (position : Position)
    (byte : UInt8) :
    Position :=
  if byte = 10 then
    ⟨position.line + 1, 1⟩
  else
    ⟨position.line, position.column + 1⟩

/-- The position after a run of bytes. -/
def advanceByBytes
    (position : Position)
    (bytes : List UInt8) :
    Position :=
  bytes.foldl advanceByte position

@[simp] theorem advanceByBytes_nil
    (position : Position) :
    position.advanceByBytes [] = position :=
  rfl

@[simp] theorem advanceByBytes_cons
    (position : Position)
    (byte : UInt8)
    (bytes : List UInt8) :
    position.advanceByBytes (byte :: bytes) =
      (position.advanceByte byte).advanceByBytes bytes :=
  rfl

theorem advanceByBytes_append
    (position : Position)
    (first second : List UInt8) :
    position.advanceByBytes (first ++ second) =
      (position.advanceByBytes first).advanceByBytes second := by
  simp [advanceByBytes]

theorem lt_advanceByte
    (position : Position)
    (byte : UInt8) :
    position < position.advanceByte byte := by
  unfold advanceByte
  rw [lt_def]
  split
  · exact .inl (Nat.lt_succ_self _)
  · exact .inr ⟨rfl, Nat.lt_succ_self _⟩

theorem le_advanceByBytes
    (position : Position)
    (bytes : List UInt8) :
    position ≤ position.advanceByBytes bytes := by
  induction bytes generalizing position with
  | nil =>
      exact le_refl position
  | cons byte rest inductionHypothesis =>
      exact le_trans (position.lt_advanceByte byte).le (inductionHypothesis _)

/-- On one line a position moves by one column with every byte. -/
theorem advanceByBytes_of_oneLine
    {bytes : List UInt8}
    (oneLine : 10 ∉ bytes)
    (position : Position) :
    position.advanceByBytes bytes =
      ⟨position.line, position.column + bytes.length⟩ := by
  induction bytes generalizing position with
  | nil =>
      rfl
  | cons byte rest inductionHypothesis =>
      rw [List.mem_cons, not_or] at oneLine
      rw [advanceByBytes_cons, inductionHypothesis oneLine.2, advanceByte,
        if_neg (Ne.symm oneLine.1), List.length_cons]
      simp only [mk.injEq, true_and]
      omega

end Position

/-! ## Bytes and characters take the same way -/

/-- Only the line feed has the byte of a line feed. -/
theorem lineFeed_notMem_utf8EncodeChar
    {character : Char}
    (notLineFeed : character ≠ '\n') :
    10 ∉ String.utf8EncodeChar character := by
  have notTen : character.val.toNat ≠ 10 := by
    intro isTen
    exact notLineFeed (Char.ext (UInt32.toNat_inj.mp isTen))
  have isValue : character.val.toNat = character.toNat := rfl
  unfold String.utf8EncodeChar
  dsimp only
  split_ifs
  all_goals
    simp only [List.mem_cons, List.not_mem_nil, or_false, ← UInt8.toNat_inj,
      UInt8.toNat_ofNat']
    simp only [UInt8.reduceToNat]
    omega

theorem Position.advanceByBytes_utf8EncodeChar
    (position : Position)
    (character : Char) :
    position.advanceByBytes (String.utf8EncodeChar character) =
      position.advance character := by
  by_cases isLineFeed : character = '\n'
  · rw [isLineFeed]
    rfl
  · rw [advanceByBytes_of_oneLine (lineFeed_notMem_utf8EncodeChar isLineFeed),
      advance, if_neg isLineFeed, String.length_utf8EncodeChar]

theorem Position.advanceByBytes_utf8Bytes
    (position : Position)
    (text : List Char) :
    position.advanceByBytes (utf8Bytes text) = position.advanceBy text := by
  induction text generalizing position with
  | nil =>
      rfl
  | cons character rest inductionHypothesis =>
      rw [utf8Bytes_cons, advanceByBytes_append, advanceByBytes_utf8EncodeChar,
        inductionHypothesis, advanceBy_cons]

theorem utf8Bytes_replicate_space
    (count : Nat) :
    utf8Bytes (List.replicate count ' ') = List.replicate count 32 := by
  induction count with
  | zero =>
      rfl
  | succ count inductionHypothesis =>
      rw [List.replicate_succ, utf8Bytes_cons, inductionHypothesis]
      rfl

/-! ## Spaces over the bytes under spans -/

/-- Whether the byte at a position is under a span. -/
def Span.Contains
    (span : Span)
    (position : Position) :
    Prop :=
  span.start ≤ position ∧ position ≤ span.stop

instance (span : Span) : DecidablePred span.Contains :=
  fun _ => inferInstanceAs (Decidable (_ ∧ _))

/-- A text from a position on, with spaces over the bytes under some spans. -/
def blankUnder
    (spans : List Span) :
    Position →
    List UInt8 →
    List UInt8
  | _, [] =>
      []
  | position, byte :: rest =>
      (if ∃ span ∈ spans, span.Contains position then 32 else byte) ::
        blankUnder spans (position.advanceByte byte) rest

variable
  {spans : List Span}
  {span : Span}
  {position : Position}

theorem blankUnder_append
    (first second : List UInt8) :
    blankUnder spans position (first ++ second) =
      blankUnder spans position first ++
        blankUnder spans (position.advanceByBytes first) second := by
  induction first generalizing position with
  | nil =>
      rfl
  | cons byte rest inductionHypothesis =>
      rw [List.cons_append, blankUnder, inductionHypothesis, blankUnder,
        List.cons_append, Position.advanceByBytes_cons]

/-- Bytes in front of all spans stay. -/
theorem blankUnder_of_before
    {bytes : List UInt8}
    (areLater :
      ∀ span ∈ spans, position.advanceByBytes bytes ≤ span.start) :
    blankUnder spans position bytes = bytes := by
  induction bytes generalizing position with
  | nil =>
      rfl
  | cons byte rest inductionHypothesis =>
      have notUnder : ¬ ∃ span ∈ spans, span.Contains position := by
        rintro ⟨span, member, contains⟩
        have moved : position < position.advanceByBytes (byte :: rest) :=
          lt_of_lt_of_le (position.lt_advanceByte byte)
            (Position.le_advanceByBytes _ rest)
        exact absurd ((areLater span member).trans contains.1)
          (not_le_of_gt moved)
      rw [blankUnder, if_neg notUnder, inductionHypothesis areLater]

/-- A span has no bytes behind its end. -/
theorem blankUnder_cons_of_behind
    (behind : span.stop < position)
    (bytes : List UInt8) :
    blankUnder (span :: spans) position bytes =
      blankUnder spans position bytes := by
  induction bytes generalizing position with
  | nil =>
      rfl
  | cons byte rest inductionHypothesis =>
      have notUnder : ¬ span.Contains position := by
        intro contains
        exact absurd contains.2 (not_le_of_gt behind)
      rw [blankUnder, blankUnder,
        inductionHypothesis (behind.trans (position.lt_advanceByte byte))]
      simp [notUnder]

/-- Bytes of one line under a span become spaces. -/
theorem blankUnder_of_under
    {bytes : List UInt8}
    (member : span ∈ spans)
    (oneLine : 10 ∉ bytes)
    (starts : span.start ≤ position)
    (stops :
      bytes ≠ [] →
      ⟨position.line, position.column + bytes.length - 1⟩ ≤ span.stop) :
    blankUnder spans position bytes = List.replicate bytes.length 32 := by
  induction bytes generalizing position with
  | nil =>
      rfl
  | cons byte rest inductionHypothesis =>
      rw [List.mem_cons, not_or] at oneLine
      have stopsHere := stops (List.cons_ne_nil _ _)
      rw [List.length_cons, Position.le_def] at stopsHere
      have isNext :
          position.advanceByte byte = ⟨position.line, position.column + 1⟩ :=
        if_neg (Ne.symm oneLine.1)
      have isUnder : ∃ span ∈ spans, span.Contains position := by
        refine ⟨span, member, starts, Position.le_def.mpr ?_⟩
        dsimp only at stopsHere
        omega
      have startsBefore : span.start ≤ position.advanceByte byte :=
        starts.trans (position.lt_advanceByte byte).le
      rw [blankUnder, if_pos isUnder,
        inductionHypothesis oneLine.2 startsBefore, List.length_cons,
        List.replicate_succ]
      intro _
      rw [isNext, Position.le_def]
      dsimp only at stopsHere ⊢
      omega

/-- A text in front of all spans stays. -/
theorem blankUnder_text
    {text : List Char}
    (areLater : ∀ span ∈ spans, position.advanceBy text ≤ span.start)
    (bytes : List UInt8) :
    blankUnder spans position (utf8Bytes text ++ bytes) =
      utf8Bytes text ++ blankUnder spans (position.advanceBy text) bytes := by
  rw [← Position.advanceByBytes_utf8Bytes] at areLater
  rw [blankUnder_append, blankUnder_of_before areLater,
    Position.advanceByBytes_utf8Bytes]

/-- A character under the first span becomes spaces, one for every byte. -/
theorem blankUnder_character
    {character : Char}
    (notLineFeed : character ≠ '\n')
    (placed : 1 ≤ position.column)
    (bytes : List UInt8) :
    blankUnder (.upTo position (position.advance character) :: spans) position
        (String.utf8EncodeChar character ++ bytes) =
      utf8Bytes (List.replicate character.utf8Size ' ') ++
        blankUnder spans (position.advance character) bytes := by
  have positive := character.utf8Size_pos
  have isNext :
      position.advance character =
        ⟨position.line, position.column + character.utf8Size⟩ :=
    if_neg notLineFeed
  have isStop :
      (Span.upTo position (position.advance character)).stop =
        ⟨position.line, position.column + character.utf8Size - 1⟩ := by
    rw [isNext, Span.upTo]
    simp only [Position.mk.injEq, true_and]
    omega
  have behind :
      (Span.upTo position (position.advance character)).stop <
        position.advance character := by
    rw [isStop, isNext, Position.lt_def]
    dsimp only
    omega
  rw [blankUnder_append, Position.advanceByBytes_utf8EncodeChar,
    blankUnder_cons_of_behind behind,
    blankUnder_of_under List.mem_cons_self
      (lineFeed_notMem_utf8EncodeChar notLineFeed) (le_refl position),
    utf8Bytes_replicate_space, String.length_utf8EncodeChar]
  intro _
  rw [isStop, String.length_utf8EncodeChar]

end GraphScript
