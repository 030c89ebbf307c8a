import GraphScript.Proofs.Source.Lines
import GraphScript.Proofs.Token.CuttingApart

namespace GraphScript.Token

/-!
# Scanning loses nothing

A text without errors is cut into gaps and spellings, with nothing left out. The
token of a spelling spans the positions between which the spelling stands.
-/

/-- A text from a position on, cut into gaps and spellings, and its tokens. -/
inductive CutInto :
    Position →
    List Char →
    List Token →
    Prop where
  | finish
      {position : Position}
      {gap : List Char}
      (isGap : Gap true gap) :
      CutInto position gap
        [⟨.endOfFile, .point (position.advanceBy gap)⟩]
  | token
      {position : Position}
      {kind : Kind}
      {gap text rest : List Char}
      {tokens : List Token}
      (isGap : Gap false gap)
      (spelled : Spelled kind text)
      (later : CutInto (position.advanceBy (gap ++ text)) rest tokens) :
      CutInto position (gap ++ (text ++ rest))
        (⟨kind, .upTo (position.advanceBy gap)
            (position.advanceBy (gap ++ text))⟩ :: tokens)

/-- Without stray characters a text is cut into gaps and spellings. -/
theorem CutApart.cutInto
    {position : Position}
    {text : List Char}
    {tokens : List Token}
    {reports : List FaultReport}
    (cut : CutApart position text tokens reports)
    (noReports : reports = []) :
    CutInto position text tokens := by
  induction cut with
  | finish isGap =>
      exact .finish isGap
  | token isGap spelled isCut later inductionHypothesis =>
      exact .token isGap spelled (inductionHypothesis noReports)
  | stray =>
      cases noReports

/-- The scanner cuts a text into gaps and spellings unless it reports a fault. -/
theorem Scanner.cutInto_of_faultless
    {scanner : Scanner}
    (faultless : scanner.tokens.2.faults = []) :
    CutInto scanner.position scanner.rest scanner.tokens.1 := by
  have few : scanner.tokens.2.faults.length < Diagnostic.errorLimit := by
    rw [faultless]
    decide
  have areStray : AreStray scanner.tokens.2.faults := by
    intro report member
    rw [faultless] at member
    cases member
  obtain ⟨reports, areFaults, cut⟩ := exists_cutApart_of_tokens few areStray
  rw [faultless] at areFaults
  exact cut.cutInto (List.append_eq_nil_iff.mp areFaults.symm).2

/-! ## The pieces of a file -/

/-- A part of a text that a token is read from, with the gap before it. -/
structure Piece where
  gap : List Char
  text : List Char
  token : Token

namespace Piece

/-- The characters of a piece. -/
def written
    (piece : Piece) :
    List Char :=
  piece.gap ++ piece.text

/--
Whether the token of a piece says what the piece is and where it stands.

The piece is scanned to the same token when it is alone, and the bytes of the
file under the span of the token are the bytes of the piece.
-/
structure IsExact
    (file : SourceFile)
    (piece : Piece) :
    Prop where
  isGap : Gap false piece.gap
  notEnd : piece.token.kind ≠ .endOfFile
  oneLine : '\n' ∉ piece.text
  sameLine : piece.token.span.start.line = piece.token.span.stop.line
  faultlessAlone : (scan piece.text).faults = []
  sameAlone :
    (scan piece.text).tokens.map Token.kind = [piece.token.kind, .endOfFile]
  isSlice :
    file.slice? piece.token.span = some (String.ofList piece.text).toUTF8

/-- A spelling that stands in a file is exactly what its token says. -/
theorem isExact_of_spelled
    {file : SourceFile}
    {kind : Kind}
    {before gap text after : List Char}
    (isContents : file.contents.toList = before ++ (gap ++ (text ++ after)))
    (isGap : Gap false gap)
    (spelled : Spelled kind text) :
    IsExact file
      ⟨gap, text, kind,
        .upTo (Position.origin.advanceBy (before ++ gap))
          (Position.origin.advanceBy (before ++ gap ++ text))⟩ := by
  have stays := staysOnLine_of_spelled spelled
  have alone :
      (scan text).faults = [] ∧
        (scan text).tokens.map Token.kind = [kind] ++ [.endOfFile] :=
    Scanner.tokens_of_written (.last spelled) (Scanner.passes_nil _) .nil rfl
      rfl
  have isPlaced :
      file.contents.toList = before ++ gap ++ (text ++ after) := by
    rw [isContents, List.append_assoc]
  constructor
  · exact isGap
  · rintro rfl
    cases spelled
  · exact stays.oneLine
  · rw [Position.advanceBy_append _ (before ++ gap),
      Position.advanceBy_of_oneLine stays.oneLine]
    rfl
  · exact alone.1
  · exact alone.2
  · exact SourceFile.slice?_upTo isPlaced stays.nonempty stays.oneLine
      stays.endsVisibly

end Piece

/-- The tokens of a text are those of its pieces and the one that ends it. -/
theorem CutInto.exists_pieces
    {file : SourceFile}
    {position : Position}
    {before rest : List Char}
    {tokens : List Token}
    (cut : CutInto position rest tokens)
    (isPosition : position = Position.origin.advanceBy before)
    (isContents : file.contents.toList = before ++ rest) :
    ∃ (pieces : List Piece) (trailing : List Char) (finish : Token),
      rest = pieces.flatMap Piece.written ++ trailing ∧
        Gap true trailing ∧
        tokens = pieces.map Piece.token ++ [finish] ∧
        finish.kind = .endOfFile ∧
        ∀ piece ∈ pieces, piece.IsExact file := by
  induction cut generalizing before with
  | @finish position gap isGap =>
      refine ⟨[], gap, _, rfl, isGap, rfl, rfl, ?_⟩
      intro piece member
      cases member
  | @token position kind gap text rest tokens isGap spelled _
      inductionHypothesis =>
      have isLaterPosition :
          position.advanceBy (gap ++ text) =
            Position.origin.advanceBy (before ++ gap ++ text) := by
        rw [isPosition, ← Position.advanceBy_append, List.append_assoc]
      have isLaterContents :
          file.contents.toList = before ++ gap ++ text ++ rest := by
        rw [isContents]
        simp only [List.append_assoc]
      obtain ⟨pieces, trailing, finish, isRest, isTrailing, areTokens, isEnd, areExact⟩ :=
        inductionHypothesis isLaterPosition isLaterContents
      have isExact := Piece.isExact_of_spelled isContents isGap spelled
      rw [isLaterPosition, isPosition, ← Position.advanceBy_append]
      refine ⟨_ :: pieces, trailing, finish, ?_, isTrailing, ?_, isEnd,
        List.forall_mem_cons.2 ⟨isExact, areExact⟩⟩
      · rw [isRest, List.flatMap_cons, Piece.written]
        simp only [List.append_assoc]
      · rw [areTokens]
        rfl

/--
Scanning loses nothing, and the places of tokens are exact.

A file without errors consists of gaps and the pieces that its tokens are read
from, in order. Each token tells the piece and the bytes of the line where it
stands.
-/
theorem scanning_loses_nothing
    (file : SourceFile)
    (faultless : (scan file.contents.toList).faults = []) :
    ∃ (pieces : List Piece) (trailing : List Char) (finish : Token),
      file.contents.toList = pieces.flatMap Piece.written ++ trailing ∧
        Gap true trailing ∧
        (scan file.contents.toList).tokens =
          pieces.map Piece.token ++ [finish] ∧
        finish.kind = .endOfFile ∧
        ∀ piece ∈ pieces, piece.IsExact file := by
  have cut :
      CutInto .origin file.contents.toList (scan file.contents.toList).tokens :=
    Scanner.cutInto_of_faultless faultless
  have atStart : Position.origin = Position.origin.advanceBy [] :=
    rfl
  exact cut.exists_pieces atStart rfl

theorem scanning_loses_nothing_of_two_lines :
    (scan twoLines.toList).faults = [] ∧
      ∃ (pieces : List Piece) (trailing : List Char) (finish : Token),
        twoLines.toList = pieces.flatMap Piece.written ++ trailing ∧
          Gap true trailing ∧
          (scan twoLines.toList).tokens =
            pieces.map Piece.token ++ [finish] ∧
          finish.kind = .endOfFile ∧
          ∀ piece ∈ pieces, piece.IsExact ⟨"words", twoLines⟩ := by
  have read :
      (scan twoLines.toList).faults = [] ∧ _ :=
    Scanner.tokens_of_written written_twoLines (Scanner.passes_nil _) .nil rfl
      rfl
  have faultless := read.1
  exact ⟨faultless, scanning_loses_nothing ⟨"words", twoLines⟩ faultless⟩

end GraphScript.Token
