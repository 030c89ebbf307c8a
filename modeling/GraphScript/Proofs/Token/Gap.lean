import GraphScript.Token.Scanner
import Mathlib.Data.List.TakeWhile

namespace GraphScript.Token

/-!
# Gaps between tokens

What stands between two tokens is a run of blanks and comments. A line comment
ends with its line, and only at the end of a text that may be the end of the text
itself. The scanner steps over a gap as a whole, and where it reports no fault
it has stepped over nothing else.
-/

/-- The characters that stand for nothing. -/
def IsBlank
    (character : Char) :
    Prop :=
  character = ' ' ∨ character = '\t' ∨ character = '\r' ∨ character = '\n'

instance : DecidablePred IsBlank :=
  fun _ => inferInstanceAs (Decidable (_ ∨ _))

/--
Runs of blanks and comments.

At the end of a text the last line comment may be without a line feed.
-/
inductive Gap
    (atEnd : Bool) :
    List Char →
    Prop where
  | nil :
      Gap atEnd []
  | blank
      {character : Char}
      {rest : List Char}
      (blank : IsBlank character)
      (later : Gap atEnd rest) :
      Gap atEnd (character :: rest)
  | lineComment
      {body rest : List Char}
      (oneLine : '\n' ∉ body)
      (later : Gap atEnd rest) :
      Gap atEnd ('/' :: '/' :: (body ++ '\n' :: rest))
  | blockComment
      {body rest : List Char}
      (closesOnce : ¬ ['*', '/'] <:+: body)
      (later : Gap atEnd rest) :
      Gap atEnd ('/' :: '*' :: (body ++ '*' :: '/' :: rest))
  | lastLine
      {body : List Char}
      (oneLine : '\n' ∉ body)
      (isEnd : atEnd = true) :
      Gap atEnd ('/' :: '/' :: body)

namespace Gap

/-- What may stand between two tokens may stand at the end. -/
theorem toEnd
    {atEnd : Bool}
    {gap : List Char}
    (isGap : Gap atEnd gap) :
    Gap true gap := by
  induction isGap with
  | nil =>
      exact .nil
  | blank blank _ inductionHypothesis =>
      exact .blank blank inductionHypothesis
  | lineComment oneLine _ inductionHypothesis =>
      exact .lineComment oneLine inductionHypothesis
  | blockComment closesOnce _ inductionHypothesis =>
      exact .blockComment closesOnce inductionHypothesis
  | lastLine oneLine _ =>
      exact .lastLine oneLine rfl

/-- Gaps join to gaps. -/
theorem append
    {atEnd : Bool}
    {gap later : List Char}
    (isGap : Gap false gap)
    (isLater : Gap atEnd later) :
    Gap atEnd (gap ++ later) := by
  induction isGap with
  | nil =>
      exact isLater
  | blank blank _ inductionHypothesis =>
      exact .blank blank inductionHypothesis
  | lineComment oneLine _ inductionHypothesis =>
      have isLine := Gap.lineComment oneLine inductionHypothesis
      simpa using isLine
  | blockComment closesOnce _ inductionHypothesis =>
      have isBlock := Gap.blockComment closesOnce inductionHypothesis
      simpa using isBlock
  | lastLine _ isEnd =>
      cases isEnd

/-- Any number of spaces is a gap. -/
theorem spaces
    (count : Nat) :
    Gap false (List.replicate count ' ') := by
  induction count with
  | zero =>
      exact .nil
  | succ count inductionHypothesis =>
      exact .blank (.inl rfl) inductionHypothesis

/-- A line feed at the head of a gap is a blank of it. -/
theorem of_lineFeed
    {atEnd : Bool}
    {rest : List Char}
    (isGap : Gap atEnd ('\n' :: rest)) :
    Gap atEnd rest := by
  cases isGap with
  | blank _ later =>
      exact later

/-- A line comment stands before the line feed at the head of a gap, or at the end. -/
theorem lineComment_append
    {atEnd : Bool}
    {body gap : List Char}
    (oneLine : '\n' ∉ body)
    (isGap : Gap atEnd gap)
    (lineEnds : ∀ character ∈ gap.head?, character = '\n')
    (isEnd : gap = [] → atEnd = true) :
    Gap atEnd ('/' :: '/' :: (body ++ gap)) := by
  cases gap with
  | nil =>
      rw [List.append_nil]
      exact .lastLine oneLine (isEnd rfl)
  | cons character rest =>
      cases lineEnds character rfl
      exact .lineComment oneLine isGap.of_lineFeed

end Gap

/-- Whether a text starts with neither a blank nor a comment. -/
def StartsNoGap
    (text : List Char) :
    Prop :=
  ∀ character rest,
    text = character :: rest →
    isBlank character = false ∧
      (character = '/' → rest.head? ≠ some '/' ∧ rest.head? ≠ some '*')

/-- The scanner's test for a blank tells exactly the four blanks. -/
theorem isBlank_iff
    {character : Char} :
    isBlank character = true ↔ IsBlank character := by
  simp [isBlank, IsBlank, or_assoc]

theorem startsNoGap_nil :
    StartsNoGap [] := by
  intro _ _ isCons
  cases isCons

/--
What the scanner steps over at once, before the rest of its text.

A line comment is stepped over up to the line feed that ends it.
-/
inductive GapPiece
    (behind : List Char) :
    List Char →
    Prop where
  | blank
      {character : Char}
      (blank : IsBlank character) :
      GapPiece behind [character]
  | lineComment
      {body : List Char}
      (oneLine : '\n' ∉ body)
      (lineEnds : ∀ character ∈ behind.head?, character = '\n') :
      GapPiece behind ('/' :: '/' :: body)
  | blockComment
      {body : List Char}
      (closesOnce : ¬ ['*', '/'] <:+: body) :
      GapPiece behind ('/' :: '*' :: (body ++ ['*', '/']))

/-- A piece before a gap is a gap, since no line comment ends before its line. -/
theorem GapPiece.append
    {piece gap rest : List Char}
    (isPiece : GapPiece (gap ++ rest) piece)
    (isGap : Gap rest.isEmpty gap)
    (startsNoGap : StartsNoGap rest) :
    Gap rest.isEmpty (piece ++ gap) := by
  cases isPiece with
  | blank blank =>
      exact .blank blank isGap
  | blockComment closesOnce =>
      have isBlock := Gap.blockComment closesOnce isGap
      simpa using isBlock
  | lineComment oneLine lineEnds =>
      apply Gap.lineComment_append oneLine isGap
      · intro character isHead
        apply lineEnds character
        simp [Option.mem_def.1 isHead]
      · rintro rfl
        cases rest with
        | nil =>
            rfl
        | cons character rest =>
            -- The line feed behind the comment would be in the gap.
            cases lineEnds character rfl
            have notBlank := (startsNoGap _ rest rfl).1
            cases notBlank

/-- A run of characters of a class ends where a character is of another class. -/
theorem takeWhile_append_of_stop
    {inClass : Char → Bool}
    {body rest : List Char}
    (inside : ∀ character ∈ body, inClass character = true)
    (stops : ∀ character ∈ rest.head?, inClass character = false) :
    (body ++ rest).takeWhile inClass = body := by
  rw [List.takeWhile_append_of_pos inside]
  cases rest with
  | nil =>
      simp
  | cons character rest =>
      simp [stops character rfl]

/-! ## Block comments -/

/--
A text does not hold a close of a comment if it neither starts with one nor holds
one later.
-/
theorem not_closes_cons_iff
    {character : Char}
    {body : List Char} :
    ¬ ['*', '/'] <:+: character :: body ↔
      ¬ (character = '*' ∧ body.head? = some '/') ∧
        ¬ ['*', '/'] <:+: body := by
  rw [List.infix_cons_iff, not_or, List.cons_prefix_cons]
  cases body with
  | nil =>
      simp
  | cons next body =>
      simp [List.cons_prefix_cons, eq_comm (a := '*'), eq_comm (a := '/')]

/-- A block comment ends where it is closed for the first time. -/
theorem blockCommentLength?_append
    {body : List Char}
    (closesOnce : ¬ ['*', '/'] <:+: body)
    (rest : List Char) :
    blockCommentLength? (body ++ '*' :: '/' :: rest) =
      some (body.length + 2) := by
  induction body with
  | nil =>
      rfl
  | cons character body inductionHypothesis =>
      obtain ⟨notHere, closesLater⟩ := not_closes_cons_iff.1 closesOnce
      have notYet :
          ∀ later,
            character = '*' →
            body ++ '*' :: '/' :: rest = '/' :: later →
            False := by
        intro later isStar follows
        apply notHere
        cases body with
        | nil =>
            cases follows
        | cons next body =>
            cases follows
            exact ⟨isStar, rfl⟩
      rw [List.cons_append, blockCommentLength?,
        inductionHypothesis closesLater]
      · rfl
      · exact notYet

/--
Where the scanner finds the end of a block comment, the body before it holds no
earlier one, and the length counts the body and the close.
-/
theorem exists_body_of_blockCommentLength?
    {text : List Char}
    {length : Nat}
    (ends : blockCommentLength? text = some length) :
    ∃ body rest,
      text = body ++ '*' :: '/' :: rest ∧
        length = body.length + 2 ∧
        ¬ ['*', '/'] <:+: body := by
  fun_induction blockCommentLength? text generalizing length with
  | case1 =>
      cases ends
  | case2 rest =>
      cases ends
      exact ⟨[], rest, rfl, rfl, by simp⟩
  | case3 character rest notYet inductionHypothesis =>
      obtain ⟨shorter, endsLater, rfl⟩ := Option.map_eq_some_iff.1 ends
      obtain ⟨body, later, rfl, rfl, closesLater⟩ :=
        inductionHypothesis endsLater
      refine ⟨character :: body, later, rfl, rfl, ?_⟩
      apply not_closes_cons_iff.2 ⟨?_, closesLater⟩
      rintro ⟨rfl, startsSlash⟩
      obtain ⟨tail, rfl⟩ := List.head?_eq_some_iff.1 startsSlash
      exact notYet _ rfl rfl

namespace Scanner

variable {scanner next : Scanner}

/-! ## Stepping over characters -/

/-- Two steps forward are one step over both. -/
theorem skip_skip
    (scanner : Scanner)
    (first second : Nat) :
    (scanner.skip first).skip second = scanner.skip (first + second) := by
  simp [skip, ← Position.advanceBy_append, List.take_add]

/-- Behind the first part of a text the rest of it is ahead. -/
theorem rest_skip_of_append
    {first later : List Char}
    (isRest : scanner.rest = first ++ later) :
    (scanner.skip first.length).rest = later := by
  rw [rest_skip, isRest, List.drop_left]

/-- Whether the second scanner has passed the text that is ahead of the first. -/
structure Passes
    (scanner : Scanner)
    (text : List Char)
    (next : Scanner) :
    Prop where
  isRest : scanner.rest = text ++ next.rest
  isSkip : next = scanner.skip text.length

theorem passes_nil
    (scanner : Scanner) :
    scanner.Passes [] scanner :=
  ⟨rfl, rfl⟩

/-- Skipping what stands first passes exactly that text. -/
theorem passes_skip
    {text later : List Char}
    (isRest : scanner.rest = text ++ later) :
    scanner.Passes text (scanner.skip text.length) := by
  constructor
  · rw [rest_skip_of_append isRest, isRest]
  · rfl

namespace Passes

variable {text : List Char}

/-- Passing one text and then another passes both. -/
theorem append
    {later : List Char}
    {last : Scanner}
    (passes : scanner.Passes text next)
    (passesLater : next.Passes later last) :
    scanner.Passes (text ++ later) last := by
  constructor
  · rw [List.append_assoc, ← passesLater.isRest, passes.isRest]
  · rw [passesLater.isSkip, passes.isSkip, skip_skip, List.length_append]

/-- What is passed over is not reported. -/
theorem faults
    (passes : scanner.Passes text next) :
    next.faults = scanner.faults := by
  rw [passes.isSkip]
  rfl

/-- The position after a passed text is the old one advanced by that text. -/
theorem position
    (passes : scanner.Passes text next) :
    next.position = scanner.position.advanceBy text := by
  rw [passes.isSkip, skip, passes.isRest, List.take_left]

end Passes

/-! ## Stepping over one blank or comment -/

/-- A blank is stepped over on its own. -/
theorem skipSeparator?_of_blank
    {character : Char}
    {rest : List Char}
    (isRest : scanner.rest = character :: rest)
    (blank : isBlank character = true) :
    scanner.skipSeparator? = some (scanner.skip 1) := by
  have notSlash : character ≠ '/' := by
    rintro rfl
    exact absurd blank (by decide)
  unfold skipSeparator?
  rw [isRest]
  split
  · simp_all
  · simp_all
  · simp_all
  · next other _ _ _ isCons =>
      cases isCons
      rw [if_pos blank]

/-- A line comment is stepped over up to the end of its line. -/
theorem skipSeparator?_of_line
    {body rest : List Char}
    (isRest : scanner.rest = '/' :: '/' :: (body ++ rest))
    (oneLine : '\n' ∉ body)
    (lineEnds : ∀ character ∈ rest.head?, character = '\n') :
    scanner.skipSeparator? = some (scanner.skip (body.length + 2)) := by
  have commentTaken :
      scanner.rest.takeWhile (fun character => character ≠ '\n') =
        '/' :: '/' :: body := by
    rw [isRest, ← List.cons_append, ← List.cons_append]
    apply takeWhile_append_of_stop
    · intro character member
      have notLineFeed : character ≠ '\n' := by
        rintro rfl
        simp [oneLine] at member
      simpa using notLineFeed
    · intro character isHead
      simp [lineEnds character isHead]
  unfold skipSeparator?
  split
  · simp_all
  · rw [commentTaken]
    rfl
  · simp_all
  · simp_all

/-- A block comment is stepped over up to where it is closed. -/
theorem skipSeparator?_of_block
    {body rest : List Char}
    (isRest : scanner.rest = '/' :: '*' :: (body ++ '*' :: '/' :: rest))
    (closesOnce : ¬ ['*', '/'] <:+: body) :
    scanner.skipSeparator? = some (scanner.skip (body.length + 4)) := by
  have closes := blockCommentLength?_append closesOnce rest
  unfold skipSeparator?
  split
  · simp_all
  · simp_all
  · unfold skipBlockComment
    rw [isRest, List.drop_succ_cons, List.drop_succ_cons, List.drop_zero,
      closes]
    simp only [Option.some.injEq]
    congr 1
    omega
  · simp_all

/-- Nothing is stepped over where neither a blank nor a comment starts. -/
theorem skipSeparator?_of_startsNoGap
    (startsNoGap : StartsNoGap scanner.rest) :
    scanner.skipSeparator? = none := by
  unfold skipSeparator?
  split
  · rfl
  · next rest isRest =>
      exact absurd rfl ((startsNoGap _ _ isRest).2 rfl).1
  · next rest isRest =>
      exact absurd rfl ((startsNoGap _ _ isRest).2 rfl).2
  · next character rest _ _ isRest =>
      rw [(startsNoGap _ _ isRest).1]
      rfl

/-- Where the scanner steps over nothing, neither a blank nor a comment starts. -/
theorem startsNoGap_of_skipSeparator?
    (none : scanner.skipSeparator? = none) :
    StartsNoGap scanner.rest := by
  intro character rest isRest
  unfold skipSeparator? at none
  split at none
  · simp_all
  · cases none
  · cases none
  · next other later notLine notBlock isOther =>
      rw [isOther] at isRest
      cases isRest
      split at none
      · cases none
      · next notBlank =>
          refine ⟨Bool.eq_false_iff.2 notBlank, ?_⟩
          rintro rfl
          constructor
          · intro isSlash
            obtain ⟨tail, rfl⟩ := List.head?_eq_some_iff.1 isSlash
            exact notLine tail rfl rfl
          · intro isStar
            obtain ⟨tail, rfl⟩ := List.head?_eq_some_iff.1 isStar
            exact notBlock tail rfl rfl

/--
What is stepped over from two slashes to the end of their line is a piece of a
gap.
-/
theorem exists_lineComment
    {rest : List Char}
    (isRest : scanner.rest = '/' :: '/' :: rest) :
    ∃ piece,
      scanner.Passes piece
          (scanner.skip
            (scanner.rest.takeWhile fun character => character ≠ '\n').length) ∧
        GapPiece
          (scanner.skip
            (scanner.rest.takeWhile fun character => character ≠ '\n').length).rest
          piece := by
  let onLine : Char → Bool := fun character => character ≠ '\n'
  have isSplit :
      scanner.rest =
        scanner.rest.takeWhile onLine ++ scanner.rest.dropWhile onLine :=
    List.takeWhile_append_dropWhile.symm
  have isTaken :
      scanner.rest.takeWhile onLine = '/' :: '/' :: rest.takeWhile onLine := by
    rw [isRest]
    rfl
  refine ⟨scanner.rest.takeWhile onLine, passes_skip isSplit, ?_⟩
  rw [rest_skip_of_append isSplit, isTaken]
  apply GapPiece.lineComment
  · intro member
    exact absurd (List.mem_takeWhile_imp member) (by decide)
  · intro character isHead
    have stops := List.head?_dropWhile_not onLine scanner.rest
    rw [isHead] at stops
    simpa [onLine] using stops

/-- Whether a scanner has found the end of every comment. -/
def EndsComments
    (scanner : Scanner) :
    Prop :=
  ∀ report ∈ scanner.faults, report.fault ≠ .unterminatedComment

/--
What is stepped over from the open of a block comment is a piece of a gap, if the
comment ends.
-/
theorem exists_blockComment
    {rest : List Char}
    (isRest : scanner.rest = '/' :: '*' :: rest)
    (endsComments : scanner.skipBlockComment.EndsComments) :
    ∃ piece,
      scanner.Passes piece scanner.skipBlockComment ∧
        GapPiece scanner.skipBlockComment.rest piece := by
  unfold skipBlockComment at endsComments ⊢
  rw [isRest] at endsComments ⊢
  split at endsComments
  · next length ends =>
      obtain ⟨body, later, isLater, rfl, closesOnce⟩ :=
        exists_body_of_blockCommentLength? ends
      have isPiece :
          scanner.rest =
            ('/' :: '*' :: (body ++ ['*', '/'])) ++ later := by
        rw [isRest]
        simpa using isLater
      have isLength :
          ('/' :: '*' :: (body ++ ['*', '/'])).length =
            2 + (body.length + 2) := by
        simp
        omega
      rw [← isLength]
      exact ⟨_, passes_skip isPiece, .blockComment closesOnce⟩
  · exact absurd rfl
      (endsComments _ (List.mem_append_right _ List.mem_cons_self))

/-- What is stepped over at once is a piece of a gap, unless it has no end. -/
theorem exists_piece_of_skipSeparator?
    (skipped : scanner.skipSeparator? = some next)
    (endsComments : next.EndsComments) :
    ∃ piece, scanner.Passes piece next ∧ GapPiece next.rest piece := by
  unfold skipSeparator? at skipped
  split at skipped
  · cases skipped
  · next rest isRest =>
      cases skipped
      exact exists_lineComment isRest
  · next rest isRest =>
      cases skipped
      exact exists_blockComment isRest endsComments
  · next character rest _ _ isRest =>
      split at skipped
      · next blank =>
          cases skipped
          have isPiece : scanner.rest = [character] ++ rest := isRest
          exact ⟨_, passes_skip isPiece, .blank (isBlank_iff.1 blank)⟩
      · cases skipped

/-! ## Stepping over a gap -/

/-- Stepping over all separators starts with the first. -/
theorem skipSeparators_of_some
    (skipped : scanner.skipSeparator? = some next) :
    scanner.skipSeparators = next.skipSeparators := by
  rw [skipSeparators]
  split
  · simp_all
  · simp_all

/-- Where there is no separator, the scanner stays where it is. -/
theorem skipSeparators_of_none
    (none : scanner.skipSeparator? = none) :
    scanner.skipSeparators = scanner := by
  rw [skipSeparators]
  split
  · simp_all
  · rfl

/-- One piece of a gap is stepped over, and then the gap behind it. -/
theorem skipSeparators_of_piece
    (piece : List Char)
    {gap behind : List Char}
    (isRest : scanner.rest = piece ++ behind)
    (skipped : scanner.skipSeparator? = some (scanner.skip piece.length))
    (later :
      ∀ after : Scanner,
        after.rest = behind →
        after.skipSeparators = (after.skip gap.length).skipSeparators) :
    scanner.skipSeparators =
      (scanner.skip (piece ++ gap).length).skipSeparators := by
  rw [skipSeparators_of_some skipped, later _ (rest_skip_of_append isRest),
    skip_skip, List.length_append]

/-- A gap is stepped over as a whole, whatever comes behind it. -/
theorem skipSeparators_of_gap
    {atEnd : Bool}
    {gap rest : List Char}
    (isGap : Gap atEnd gap)
    (isRest : scanner.rest = gap ++ rest)
    (ends : atEnd = true → rest = []) :
    scanner.skipSeparators = (scanner.skip gap.length).skipSeparators := by
  induction isGap generalizing scanner with
  | nil =>
      rfl
  | @blank character gap blank _ inductionHypothesis =>
      apply skipSeparators_of_piece [character] isRest
      · exact skipSeparator?_of_blank isRest (isBlank_iff.2 blank)
      · intro after isAfter
        exact inductionHypothesis isAfter
  | @lineComment body gap oneLine _ inductionHypothesis =>
      have isLine :
          scanner.rest = '/' :: '/' :: (body ++ '\n' :: (gap ++ rest)) := by
        simpa using isRest
      -- The comment ends before its line feed, which is a blank of its own.
      apply skipSeparators_of_piece ('/' :: '/' :: body) isLine
      · apply skipSeparator?_of_line isLine oneLine
        simp
      · intro after isAfter
        apply skipSeparators_of_piece ['\n'] isAfter
        · exact skipSeparator?_of_blank isAfter rfl
        · intro last isLast
          exact inductionHypothesis isLast
  | @blockComment body gap closesOnce _ inductionHypothesis =>
      have isBlock :
          scanner.rest = '/' :: '*' :: (body ++ '*' :: '/' :: (gap ++ rest)) := by
        simpa using isRest
      have isPiece :
          scanner.rest =
            '/' :: '*' :: (body ++ ['*', '/']) ++ (gap ++ rest) := by
        simpa using isBlock
      have isAppend :
          '/' :: '*' :: (body ++ '*' :: '/' :: gap) =
            '/' :: '*' :: (body ++ ['*', '/']) ++ gap := by
        simp
      rw [isAppend]
      apply skipSeparators_of_piece _ isPiece
      · rw [skipSeparator?_of_block isBlock closesOnce]
        simp
      · intro after isAfter
        exact inductionHypothesis isAfter
  | @lastLine body oneLine isEnd =>
      cases ends isEnd
      have isLine : scanner.rest = '/' :: '/' :: (body ++ []) := by
        simpa using isRest
      apply skipSeparators_of_some
      rw [skipSeparator?_of_line isLine oneLine (by simp)]
      simp

/-- Behind a gap the scanner stops where no further gap starts. -/
theorem skipSeparators_of_passes
    {atEnd : Bool}
    {gap : List Char}
    (passes : scanner.Passes gap next)
    (isGap : Gap atEnd gap)
    (ends : atEnd = true → next.rest = [])
    (startsNoGap : StartsNoGap next.rest) :
    scanner.skipSeparators = next := by
  rw [skipSeparators_of_gap isGap passes.isRest ends, ← passes.isSkip]
  apply skipSeparators_of_none
  exact skipSeparator?_of_startsNoGap startsNoGap

/-! ## Every run of blanks and comments with an end is a gap -/

/-- A scanner that leaves no comment open after one step left none open before. -/
theorem EndsComments.of_skipSeparator?
    (skipped : scanner.skipSeparator? = some next)
    (endsComments : next.EndsComments) :
    scanner.EndsComments := by
  obtain ⟨piece, passes, -⟩ :=
    exists_piece_of_skipSeparator? skipped endsComments
  rw [EndsComments, ← passes.faults]
  exact endsComments

/--
A scanner that leaves no comment open after all its steps left none open before.
-/
theorem EndsComments.of_skipSeparators
    (endsComments : scanner.skipSeparators.EndsComments) :
    scanner.EndsComments := by
  fun_induction skipSeparators scanner with
  | case1 scanner next skipped _ inductionHypothesis =>
      exact .of_skipSeparator? skipped (inductionHypothesis endsComments)
  | case2 scanner none =>
      exact endsComments

/-- Where comments end, the scanner steps over a gap and nothing else. -/
theorem exists_gap
    (endsComments : scanner.skipSeparators.EndsComments) :
    ∃ gap,
      scanner.Passes gap scanner.skipSeparators ∧
        Gap scanner.skipSeparators.rest.isEmpty gap ∧
        StartsNoGap scanner.skipSeparators.rest := by
  fun_induction skipSeparators scanner with
  | case1 scanner next skipped _ inductionHypothesis =>
      obtain ⟨gap, passesGap, isGap, startsNoGap⟩ :=
        inductionHypothesis endsComments
      obtain ⟨piece, passesPiece, isPiece⟩ :=
        exists_piece_of_skipSeparator? skipped (.of_skipSeparators endsComments)
      rw [passesGap.isRest] at isPiece
      exact ⟨piece ++ gap, passesPiece.append passesGap,
        isPiece.append isGap startsNoGap, startsNoGap⟩
  | case2 scanner none =>
      exact ⟨[], passes_nil scanner, .nil, startsNoGap_of_skipSeparator? none⟩

end Scanner

end GraphScript.Token
